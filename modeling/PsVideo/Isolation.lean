import PsVideo.Unseen

/-!
# PsVideo.Isolation

Two mounted views. They share the static player, so what one does to it the other sees. As long as
the events of a view `a` use the current player only while `a` has made it, and those of the other
views only while `a` has not, the run without the events of `a` is a run too, with the same commands
of the others and the same players.
-/

namespace PsVideo

open Machine

/-- The events of view `a`: its updates and taps, those of its full-screen sessions, and what these
leave behind: timers, observers and players. -/
def Event.by (a : ViewId) (w : World) : Event → Bool
  | .property v _ | .tap v _ | .delayedBlock v => v = a
  | .fullTap _ | .viewDidAppear | .viewDismissed => w.screen.vc.any (·.of a)
  | .timer t | .tick t => t.of a
  | .itemProgress p _ _ _ | .itemEnd p | .playbackError p => p.of a
  | .mount | .unmount _ | .playAnotherVideo _ | .mainBlock | .background => false

/-- The events that command the current player, or hand it to a session. -/
def Event.commands : Event → Bool
  | .property _ (.paused _) | .property _ (.play false) | .property _ (.stop _)
  | .property _ (.maxBitRate _) | .delayedBlock _ | .mainBlock => true
  | .tap _ c => c.commands
  | _ => false

/-- The events that do, or read its item. -/
def Event.uses : Event → Bool
  | .tick ⟨.view _, _⟩ => true
  | e => e.commands

/-- `a` commands only a player it has made itself, and no other view uses such a player. -/
def Apart (a : ViewId) (w : World) (e : Event) : Prop :=
  (e.by a w = true → e.commands = true → Within a w.env.player) ∧
    (e.by a w = false → e.uses = true → Avoids a w.env.player)

instance (a : ViewId) (w : World) (e : Event) : Decidable (Apart a w e) :=
  inferInstanceAs (Decidable ((_ → _ → _) ∧ (_ → _ → _)))

/-- What covers the screen without `a`. -/
def Screen.without (a : ViewId) (s : Screen) : Screen := if s.vc.any (·.of a) then .inline else s

theorem Screen.without_of_not {a : ViewId} {s : Screen} (h : s.vc.any (·.of a) = false) :
    s.without a = s := by
  simp [without, h]

theorem Screen.without_of {a : ViewId} {s : Screen} (h : s.vc.any (·.of a) = true) :
    s.without a = .inline := by
  simp [without, h]

/-- View `a`, of the `n` mounted so far, on which nothing has been done. -/
def PsVideoView.untouched (a : ViewId) (n : ℕ) : PsVideoView :=
  if a < n then .setup (.view a) .init else .init

/-- The world in which `a` has done nothing, and `q` is current. -/
def World.without (a : ViewId) (q : Option PlayerId) (w : World) : World :=
  { w with
    env := w.env.without a q
    views := erase (· = a) (PsVideoView.untouched a w.nextView) w.views
    vcs := erase (·.of a) PsVideoFullViewVC.init w.vcs
    vcCount := erase (· = a) 0 w.vcCount
    screen := w.screen.without a
    delayed := w.delayed.filter (· ≠ a) }

/-- The controllers of `a` hold players that `a` has made, the others do not. -/
structure Sorted (a : ViewId) (w : World) : Prop where
  inside : ∀ k, k.of a = true → Within a (w.vcs k).player
  outside : ∀ k, k.of a = false → Avoids a (w.vcs k).player

theorem Sorted.quiet {a : ViewId} {w w' : World} (h : Sorted a w) (q : Quiet w w') :
    Sorted a w' :=
  ⟨fun k hk => by rw [q.vcPlayer]; exact h.inside k hk,
    fun k hk => by rw [q.vcPlayer]; exact h.outside k hk⟩

namespace World

variable {a v : ViewId} {q : Option PlayerId} {k : VcId} (w : World)

theorem without_launch (a : ViewId) : launch.without a none = launch := by
  have hnew : PsVideoView.untouched a 0 = .init := if_neg (Nat.not_lt_zero _)
  simp only [without, launch, Env.without_launch, hnew, erase_const, List.filter_nil]
  rfl

theorem scope_without (h : v ≠ a) : (w.without a q).scope v = (w.scope v).without a q := by
  simp [without, scope, Scope.without, h]

theorem fullScope_without (h : k.of a = false) :
    (w.without a q).fullScope k = (w.fullScope k).without a q := by
  simp [without, fullScope, FullScope.without, h]

theorem put_without (h : v ≠ a) (s : Scope) (q' : Option PlayerId) :
    (w.without a q).put v (s.without a q') = (w.put v s).without a q' := by
  simp [without, put, Scope.without, h, erase_update]

theorem fullPut_without (h : k.of a = false) (s : FullScope) :
    (w.without a q).fullPut k (s.without a q) = (w.fullPut k s).without a q := by
  simp [without, fullPut, FullScope.without, h, erase_update]

theorem screen_without (h : w.screen.vc.any (·.of a) = false) :
    (w.without a q).screen = w.screen := Screen.without_of_not h

theorem screenTo_without {screen : Screen} (h : screen.without a = w.screen.without a) :
    { w with screen := screen }.without a q = w.without a q := by
  simp [without, h]

/-- A handler of another view. -/
theorem handle_without (h : v ≠ a) {q' : Option PlayerId} (f : Scope → Scope)
    (hf : f ((w.scope v).without a q) = (f (w.scope v)).without a q') :
    (w.without a q).put v (f ((w.without a q).scope v)) =
      (w.put v (f (w.scope v))).without a q' := by
  rw [w.scope_without h, hf, w.put_without h]

theorem tryHandle_without (h : v ≠ a) (f : Scope → Except Trap Scope)
    (hf : f ((w.scope v).without a q) = (f (w.scope v)).map (·.without a q)) :
    (w.without a q).tryPut v (f ((w.without a q).scope v)) =
      (w.tryPut v (f (w.scope v))).map (·.without a q) := by
  rw [w.scope_without h, hf]
  cases f (w.scope v) with
  | error t => rfl
  | ok s => exact congrArg Except.ok (w.put_without h s q)

/-- A handler of another controller. -/
theorem fullHandle_without (h : k.of a = false) (f : FullScope → FullScope)
    (hf : f ((w.fullScope k).without a q) = (f (w.fullScope k)).without a q) :
    (w.without a q).fullPut k (f ((w.without a q).fullScope k)) =
      (w.fullPut k (f (w.fullScope k))).without a q := by
  rw [w.fullScope_without h, hf, w.fullPut_without h]

theorem tryFullHandle_without (h : k.of a = false) (f : FullScope → Except Trap FullScope)
    (hf : f ((w.fullScope k).without a q) = (f (w.fullScope k)).map (·.without a q)) :
    (w.without a q).tryFullPut k (f ((w.without a q).fullScope k)) =
      (w.tryFullPut k (f (w.fullScope k))).map (·.without a q) := by
  rw [w.fullScope_without h, hf]
  cases f (w.fullScope k) with
  | error t => rfl
  | ok s => exact congrArg Except.ok (w.fullPut_without h s)

/-- A handler of `a` or of one of its controllers. -/
theorem put_own {s : Scope} (h : Unseen a (w.scope a) s) :
    (w.put a s).without a q = w.without a q := by
  have he : s.env.without a q = w.env.without a q := h.env (by simp [scope, Owner.of]) q
  simp [without, put, he, erase_update_own]

theorem fullPut_own {s : FullScope} (hk : k.of a = true)
    (h : Unseen a (w.fullScope k).scope s.scope) :
    (w.fullPut k s).without a q = w.without a q := by
  have he : s.env.without a q = w.env.without a q := h.env hk q
  simp [without, fullPut, he, hk, erase_update_own]

theorem updatePlayer_without {p : PlayerId} (h : p.of a = false) (f : AVPlayer → AVPlayer) :
    (w.without a q).updatePlayer p f = (w.updatePlayer p f).without a q := by
  simp [updatePlayer, without, Env.without, h, erase_update]

theorem updatePlayer_own {p : PlayerId} (h : p.of a = true) (f : AVPlayer → AVPlayer) :
    (w.updatePlayer p f).without a q = w.without a q := by
  simp [updatePlayer, without, Env.without, h, erase_update_own]

theorem any_timers_without {o : Owner} (h : o.of a = false) :
    (w.without a q).env.timers.any (·.owner == o) = w.env.timers.any (·.owner == o) := by
  have ht : ∀ t : Handle, (!t.of a && t.owner == o) = (t.owner == o) := by
    intro t
    by_cases hto : t.owner = o
    · simp [Handle.of, hto, h]
    · have hf : (t.owner == o) = false := beq_eq_false_iff_ne.mpr hto
      rw [hf, Bool.and_false]
  simp [without, Env.without, List.any_filter, ht]

theorem vcAlive_without (h : k.of a = false) : (w.without a q).vcAlive k = w.vcAlive k := by
  have hs : ((w.without a q).screen.vc == some k) = (w.screen.vc == some k) := by
    cases hany : w.screen.vc.any (·.of a) with
    | false => rw [w.screen_without hany]
    | true =>
      cases hj : w.screen.vc with
      | none => rw [hj] at hany; cases hany
      | some j =>
        have hja : j.of a = true := by simpa [hj] using hany
        have hjk : j ≠ k := by rintro rfl; rw [h] at hja; cases hja
        rw [show (w.without a q).screen = .inline from Screen.without_of hany]
        simp [Screen.vc, hjk]
  have hk : (w.without a q).vcs k = w.vcs k := by simp [without, h]
  unfold vcAlive
  rw [w.any_timers_without (by simpa [Owner.of] using h), hs, hk]

theorem viewAlive_without (h : v ≠ a) : (w.without a q).viewAlive v = w.viewAlive v := by
  have hd : (w.without a q).delayed.contains v = w.delayed.contains v := by
    simp [without, List.contains_eq_mem, List.mem_filter, h]
  have hk : ∀ n, (⟨v, n⟩ : VcId).of a = false := fun n => decide_eq_false h
  have hvc : ∀ n, (w.without a q).vcs ⟨v, n⟩ = w.vcs ⟨v, n⟩ := fun n => by simp [without, hk n]
  have hn : (w.without a q).vcCount v = w.vcCount v := by simp [without, h]
  have hm : (w.without a q).mounted = w.mounted := rfl
  have hv : (w.without a q).views v = w.views v := by simp [without, h]
  unfold viewAlive
  simp only [w.any_timers_without (o := .view v) (by simpa [Owner.of] using h), hd, hvc, hn, hm, hv,
    w.vcAlive_without (hk _)]

theorem notifyBackground_without {r : Registration} (hr : r.observer.of a = false)
    (hs : Sorted a w) :
    (w.without a q).notifyBackground r = (w.notifyBackground r).without a q := by
  unfold notifyBackground
  cases hc : r.controller with
  | none => rfl
  | some k =>
    have hk : k.of a = false := by
      obtain ⟨o, n⟩ := r
      cases o with
      | method => cases hr
      | object o => cases o <;> cases n <;> cases hc; exact hr
    simp only [w.vcAlive_without hk]
    split
    · exact w.fullHandle_without hk PsVideoFullViewVC.appMovedToBackground
        (PsVideoFullViewVC.pauseAction_without _ hk (hs.outside k hk))
    · rfl

theorem notifyBackground_own {r : Registration} (hr : r.observer.of a = true)
    (hs : Sorted a w) : (w.notifyBackground r).without a q = w.without a q := by
  unfold notifyBackground
  cases hc : r.controller with
  | none => rfl
  | some k =>
    have hk : k.of a = true := by
      obtain ⟨o, n⟩ := r
      cases o with
      | method => cases hc
      | object o => cases o <;> cases n <;> cases hc; exact hr
    dsimp only
    split
    · exact w.fullPut_own hk (PsVideoFullViewVC.pauseAction_unseen (hs.inside k hk))
    · rfl

theorem background_without (l : List Registration) : ∀ w : World, Sorted a w →
    (l.filter (!·.observer.of a)).foldl notifyBackground (w.without a q) =
      (l.foldl notifyBackground w).without a q := by
  induction l with
  | nil => intro w _; rfl
  | cons r l ih =>
    intro w hs
    have ih' := ih (w.notifyBackground r) (hs.quiet (.notifyBackground w r))
    cases hr : r.observer.of a with
    | true => rw [List.filter_cons_of_neg (by simp [hr]), List.foldl_cons, ← ih',
        w.notifyBackground_own hr hs]
    | false => rw [List.filter_cons_of_pos (by simp [hr]), List.foldl_cons, List.foldl_cons,
        w.notifyBackground_without hr hs, ih']

end World

/-! ## Who has made what -/

/-- What the fields of an object hold, it has made itself, or its view has. -/
structure Fenced (a : ViewId) (w : World) : Prop extends Sorted a w where
  view : ∀ v, Owns (.view v) PsVideoView.init (w.views v)
  vc : ∀ k, Owns (.vc k) PsVideoFullViewVC.init.toController (w.vcs k).toController
  viewLayer : ∀ v l, (w.views v).playerLayer = some l → l.owner = .view v
  vcLayer : ∀ k l, (w.vcs k).playerLayer = some l → l.owner = .view k.view
  delegate : ∀ k, w.screen.vc = some k → (w.vcs k).delegate = k.view

namespace Fenced

variable {accepts : String → Bool} {a v : ViewId} {w w' : World}

theorem launch : Fenced a .launch where
  inside _ _ := .none a
  outside _ _ := .none a
  view _ := .refl _
  vc _ := .refl _
  viewLayer v l h := by cases h
  vcLayer k l h := by cases h
  delegate k h := by cases h

theorem viewToken (h : Fenced a w) (v : ViewId) :
    ∀ t, (w.views v).timeObserver = some t → t.owner = .view v := by
  intro t ht
  rcases (h.view v).timeObserver t ht with h0 | h0
  · cases h0
  · exact h0

theorem viewTimer (h : Fenced a w) (v : ViewId) :
    ∀ t, (w.views v).timer = some t → t.owner = .view v := by
  intro t ht
  rcases (h.view v).timer t ht with h0 | h0
  · cases h0
  · exact h0

theorem vcToken (h : Fenced a w) (k : VcId) :
    ∀ t, (w.vcs k).timeObserver = some t → t.owner = .vc k := by
  intro t ht
  rcases (h.vc k).timeObserver t ht with h0 | h0
  · cases h0
  · exact h0

theorem vcTimer (h : Fenced a w) (k : VcId) :
    ∀ t, (w.vcs k).timer = some t → t.owner = .vc k := by
  intro t ht
  rcases (h.vc k).timer t ht with h0 | h0
  · cases h0
  · exact h0

theorem quiet (h : Fenced a w) (q : Quiet w w') : Fenced a w' where
  toSorted := h.toSorted.quiet q
  view v := (h.view v).trans (q.viewOwns v)
  vc k := (h.vc k).trans (q.vcOwns k)
  viewLayer v l hl := h.viewLayer v l ((q.viewLayer v).symm.trans hl)
  vcLayer k l hl := h.vcLayer k l ((q.vcLayer k).symm.trans hl)
  delegate k hk := by
    rw [q.vcDelegate]
    exact h.delegate k (q.screen.symm.trans hk)

/-- A handler that gives its view another layer. -/
theorem put (h : Fenced a w) {s : Scope} (ho : Owns (.view v) (w.views v) s.self)
    (hl : ∀ l, s.self.playerLayer = some l → l.owner = .view v) : Fenced a (w.put v s) := by
  refine { h with view := fun u => ?_, viewLayer := fun u l hul => ?_ }
  · by_cases huv : u = v
    · subst huv; simpa [World.put] using (h.view u).trans ho
    · simpa [World.put, Function.update_of_ne huv] using h.view u
  · by_cases huv : u = v
    · subst huv; exact hl l (by simpa [World.put] using hul)
    · exact h.viewLayer u l (by simpa [World.put, Function.update_of_ne huv] using hul)

/-- The full-screen button gives the new controller the current player and the layer of the view. -/
theorem fullScreen (h : Fenced a w) (hg : Apart a w (.tap v .fullScreen))
    (hw : w.step accepts (.tap v .fullScreen) = .ok w') : Fenced a w' := by
  obtain ⟨s, layer, _, hf, hl, rfl⟩ := fullScreen_ok hw
  have hp := h.put (v := v) (s := { s with
    env := (s.env.addObserver (.vc (w.nextVc v)) .didEnterBackground).addSublayer
      (.vc (w.nextVc v)) layer
    self := { s.self with timeObserver := none } }) ⟨(fun t ht => by cases ht), hf.owns.timer⟩
    fun l hsl => h.viewLayer v l (hf.playerLayer.symm.trans hsl)
  refine { hp with
    inside := fun k hk => ?_
    outside := fun k hk => ?_
    vc := fun k => ?_
    vcLayer := fun k l hkl => ?_
    delegate := fun k hk => ?_ }
  · by_cases hkn : k = w.nextVc v
    · subst hkn
      simpa [presentedVC, World.scope] using hg.1 hk rfl
    · simpa [Function.update_of_ne hkn] using h.inside k hk
  · by_cases hkn : k = w.nextVc v
    · subst hkn
      simpa [presentedVC, World.scope] using hg.2 hk rfl
    · simpa [Function.update_of_ne hkn] using h.outside k hk
  · by_cases hkn : k = w.nextVc v
    · subst hkn
      simp only [Function.update_self]
      exact .same rfl rfl
    · simpa [Function.update_of_ne hkn] using h.vc k
  · by_cases hkn : k = w.nextVc v
    · subst hkn
      exact h.viewLayer v l (by simpa [presentedVC, World.scope] using hkl)
    · exact h.vcLayer k l (by simpa [Function.update_of_ne hkn] using hkl)
  · obtain rfl : w.nextVc v = k := Option.some.inj hk
    simp [presentedVC, World.nextVc]

theorem step {e : Event} (hi : Fenced a w) (he : w.enabled e) (hg : Apart a w e)
    (h : w.step accepts e = .ok w') : Fenced a w' := by
  cases hq : e.quiet with
  | true => exact hi.quiet (step_quiet hq he h)
  | false =>
    cases e with
    | mount =>
      cases h
      refine { hi with view := fun u => ?_, viewLayer := fun u l hl => ?_ }
      · by_cases hun : u = w.nextView
        · subst hun
          simp only [Function.update_self]
          exact .same rfl rfl
        · simpa [Function.update_of_ne hun] using hi.view u
      · by_cases hun : u = w.nextView
        · subst hun; simp [PsVideoView.setup, PsVideoView.init] at hl
        · exact hi.viewLayer u l (by simpa [Function.update_of_ne hun] using hl)
    | unmount v => cases h; exact { hi with }
    | property v p =>
      cases p with
      | url u => obtain ⟨_, rfl⟩ := url_ok h; exact { hi with }
      | _ => cases hq
    | tap v c =>
      cases c with
      | fullScreen => exact hi.fullScreen hg h
      | _ => cases hq
    | viewDismissed =>
      obtain ⟨k, p, layer, hk, _, hl, rfl⟩ := viewDismissed_ok he h
      have hf := PsVideoView.viewDismissed_frame p layer
        (w.vcs k).controlsView.videoQualityButton.title
        (w.vcs k).controlsView.settingsButton.title (w.scope (w.vcs k).delegate)
      have hm : Fenced a { w with screen := .inline } :=
        { hi with delegate := fun j hj => by cases hj }
      refine hm.put ⟨hf.owns.timeObserver, hf.owns.timer⟩ fun l hsl => ?_
      obtain rfl : layer = l := Option.some.inj (hf.playerLayer.symm.trans hsl)
      rw [hi.delegate k hk]
      exact hi.vcLayer k layer hl
    | delayedBlock v =>
      cases h
      have hm : Fenced a { w with delayed := w.delayed.tail } := { hi with }
      have hf := PsVideoView.playBlock_frame (w.scope v)
      refine hm.put ⟨hf.owns.timeObserver, hf.owns.timer⟩ fun l hsl => ?_
      obtain rfl : w.env.nextLayer (.view v) = l := Option.some.inj (hf.playerLayer.symm.trans hsl)
      rfl
    | _ => cases hq

end Fenced

/-! ## Which player is current -/

/-- `q` is current without `a`: it is also current in `w`, unless a player of `a` is there. -/
structure Stands (a : ViewId) (q : Option PlayerId) (w : World) : Prop where
  avoids : Avoids a q
  current : w.env.player = q ∨ ∃ x, w.env.player = some x ∧ x.of a = true

namespace Stands

variable {a : ViewId} {q : Option PlayerId} {w w' : World}

theorem keep (h : Stands a q w) (hp : w'.env.player = w.env.player) : Stands a q w' :=
  ⟨h.avoids, by rw [hp]; exact h.current⟩

theorem eq (h : Stands a q w) (ha : Avoids a w.env.player) : w.env.player = q := by
  rcases h.current with hq | ⟨x, hx, hxa⟩
  · exact hq
  · rw [ha x hx] at hxa; cases hxa

end Stands

/-! ## The events of others -/

section Others

variable {accepts : String → Bool} {a v : ViewId} {q : Option PlayerId} {w w' : World} {e : Event}

theorem enabled_without (hb : e.by a w = false) (he : w.enabled e) :
    (w.without a q).enabled e := by
  cases e with
  | mount | unmount | property | playAnotherVideo | mainBlock | background => exact he
  | tap v c =>
    have hv : v ≠ a := by simpa [Event.by] using hb
    obtain ⟨hm, hs, hc⟩ := he
    have hs' : (w.without a q).screen = w.screen := w.screen_without (by rw [hs]; rfl)
    exact ⟨hm, hs'.trans hs, by simpa [World.without, hv] using hc⟩
  | fullTap c =>
    have hs := w.screen_without (q := q) hb
    cases hsc : w.screen with
    | inline | presenting k => simp only [World.enabled, hsc] at he
    | presented k | dismissing k =>
      have hk : k.of a = false := by simpa [Event.by, hsc, Screen.vc] using hb
      simp only [World.enabled, hsc] at he
      simp only [World.enabled, hs, hsc]
      simpa [World.without, hk] using he
  | viewDidAppear | viewDismissed =>
    have hs := w.screen_without (q := q) hb
    simpa only [World.enabled, hs] using he
  | delayedBlock v =>
    have hv : v ≠ a := by simpa [Event.by] using hb
    obtain ⟨l, hl⟩ := List.head?_eq_some_iff.mp he
    simp [World.enabled, World.without, hl, hv]
  | timer t =>
    have ht : t.of a = false := hb
    exact List.mem_filter.mpr ⟨he, by simp [ht]⟩
  | tick t =>
    obtain ⟨o, ho, hot⟩ := List.any_eq_true.mp he
    have ht : t.of a = false := hb
    have hown : o.token.of a = false := by rwa [show o.token = t by simpa using hot]
    exact List.any_eq_true.mpr ⟨o, List.mem_filter.mpr ⟨ho, by simpa using hown⟩, hot⟩
  | itemProgress p _ _ _ | itemEnd p | playbackError p =>
    have hp : p.view ≠ a := by simpa [Event.by, PlayerId.of] using hb
    simpa [World.enabled, World.without, Env.without, hp] using he

theorem setProperty_without (hv : v ≠ a) {p : Property} (hp : ∀ u, p ≠ .url u)
    (hu : (Event.property v p).uses = true → w.env.player = q ∧ Avoids a q) :
    (w.without a q).setProperty accepts v p = (w.setProperty accepts v p).map (·.without a q) := by
  have ho : (w.scope v).me.of a = false := decide_eq_false hv
  cases p with
  | url u => exact absurd rfl (hp u)
  | paused b =>
    obtain ⟨rfl, ha⟩ := hu rfl
    cases b with
    | true =>
      exact congrArg Except.ok (w.handle_without hv PsVideoView.pauseAction
        ((w.scope v).pauseAction_without ho ha))
    | false =>
      exact congrArg Except.ok (w.handle_without hv
        (fun s => (s.call s.env.player .play).controls (·.selectPlay true))
        (congrArg (·.controls (·.selectPlay true)) ((w.scope v).call_without ho ha .play)))
  | play b =>
    cases b with
    | true => simp [World.setProperty, Except.map, World.without, List.filter_append, hv]
    | false =>
      obtain ⟨rfl, ha⟩ := hu rfl
      exact congrArg Except.ok (w.handle_without hv PsVideoView.pauseAction
        ((w.scope v).pauseAction_without ho ha))
  | stop b =>
    obtain ⟨rfl, ha⟩ := hu rfl
    exact congrArg Except.ok (w.handle_without hv (fun s => s.stopAction s.env.player)
      ((w.scope v).stopAction_without ho ha))
  | controls b => exact congrArg Except.ok (w.handle_without hv (·.controls (·.hide !b)) rfl)
  | maxBitRate d =>
    obtain ⟨rfl, ha⟩ := hu rfl
    exact congrArg Except.ok (w.handle_without hv
      (fun s => (s.controls (·.setQualityTitle d)).setBitRate s.env.player d)
      (Scope.setBitRate_without ((w.scope v).controls (·.setQualityTitle d)) ho ha d))

theorem fullScreen_without (hi : Fenced a w) (hv : v ≠ a) (hq : w.env.player = q) :
    (w.without a q).tap v .fullScreen = (w.tap v .fullScreen).map (·.without a q) := by
  have ho : (Owner.view v).of a = false := decide_eq_false hv
  have hk : (w.nextVc v).of a = false := ho
  have hn : (w.without a q).nextVc v = w.nextVc v := by simp [World.nextVc, World.without, hv]
  have hf := PsVideoView.fullScreenAction_without (w.scope v) v hk hq
    (fun t ht => by rw [Handle.of, hi.viewToken v t ht]; exact ho)
    (fun l hl => by rw [Handle.of, hi.viewLayer v l hl]; exact ho)
  simp only [World.tap]
  rw [w.scope_without hv, hn, hf]
  cases PsVideoView.fullScreenAction v (w.nextVc v) (w.scope v) with
  | error t => rfl
  | ok r =>
    simp [Except.map, World.without, World.put, Scope.without, Screen.without, Screen.vc, hv, hk,
      erase_update]

/-- The session of another view makes its own player current. -/
theorem viewDismissed_without (hi : Fenced a w) (he : w.enabled .viewDismissed)
    (hb : Event.by a w .viewDismissed = false) (h : w.step accepts .viewDismissed = .ok w') :
    ∃ p, w'.env.player = some p ∧ p.of a = false ∧
      (w.without a q).step accepts .viewDismissed = .ok (w'.without a (some p)) := by
  obtain ⟨k, p, layer, hsc, hp, hl, rfl⟩ := viewDismissed_ok he h
  have hk : k.of a = false := by simpa [Event.by, hsc] using hb
  have hd : (w.vcs k).delegate ≠ a := by
    rw [hi.delegate k hsc]; simpa [VcId.of] using hk
  have ho : (Owner.view (w.vcs k).delegate).of a = false := decide_eq_false hd
  have hpa : Avoids a (some p) := by rw [← hp]; exact hi.outside k hk
  have hlayer : layer.of a = false := by rw [Handle.of, hi.vcLayer k layer hl]; exact hk
  have hf := PsVideoView.viewDismissed_frame p layer
    (w.vcs k).controlsView.videoQualityButton.title
    (w.vcs k).controlsView.settingsButton.title (w.scope (w.vcs k).delegate)
  refine ⟨p, hf.player, hpa p rfl, ?_⟩
  have hvc : (w.without a q).vcs k = w.vcs k := by simp [World.without, hk]
  simp only [World.step, w.screen_without hb, hsc, World.viewDismissed, hvc, hp, hl]
  exact congrArg Except.ok (World.handle_without { w with screen := .inline } hd
    (PsVideoView.viewDismissed p layer _ _)
    (PsVideoView.viewDismissed_without (w.scope (w.vcs k).delegate) _ _ ho hpa hlayer))

theorem quiet_without (hi : Fenced a w) (hq : e.quiet = true) (hb : e.by a w = false)
    (hu : e.uses = true → w.env.player = q ∧ Avoids a q) :
    (w.without a q).step accepts e = (w.step accepts e).map (·.without a q) := by
  cases e with
  | mount | unmount v | viewDismissed | delayedBlock v => cases hq
  | property v p =>
    exact setProperty_without (by simpa [Event.by] using hb) (by rintro u rfl; cases hq) hu
  | tap v c =>
    have hv : v ≠ a := by simpa [Event.by] using hb
    have ho : (w.scope v).me.of a = false := decide_eq_false hv
    have hc : c ≠ .fullScreen := by rintro rfl; cases hq
    simp only [World.step, tap_eq hc]
    exact w.tryHandle_without hv (PsVideoView.control c)
      (PsVideoView.control_without _ c ho hu)
  | fullTap c =>
    simp only [World.step, w.screen_without (q := q) hb]
    cases hsc : w.screen.vc with
    | none => rfl
    | some k =>
      have hk : k.of a = false := by simpa [Event.by, hsc] using hb
      have ht : ∀ t, (w.vcs k).timeObserver = some t → t.of a = false := fun t ht => by
        rw [Handle.of, hi.vcToken k t ht]; exact hk
      have h0 := w.tryFullHandle_without hk (PsVideoFullViewVC.control c)
        (PsVideoFullViewVC.control_without (q := q) (w.fullScope k) hk (hi.outside k hk) c ht)
      simp only [World.fullTap, h0]
      cases w.tryFullPut k (PsVideoFullViewVC.control c (w.fullScope k)) with
      | error t => rfl
      | ok w1 =>
        simp only [Except.map]
        split
        · simp [World.without, Screen.without, Screen.vc, hk]
        · rfl
  | viewDidAppear =>
    simp only [World.step, w.screen_without (q := q) hb]
    cases hsc : w.screen.vc with
    | none => rfl
    | some k =>
      have hk : k.of a = false := by simpa [Event.by, hsc] using hb
      have h0 := w.fullHandle_without hk PsVideoFullViewVC.viewDidAppear
        (PsVideoFullViewVC.viewDidAppear_without (q := q) _ hk (hi.outside k hk))
      simp only [h0]
      simp [Except.map, World.without, Screen.without, Screen.vc, hk]
  | playAnotherVideo url => rfl
  | mainBlock =>
    obtain ⟨rfl, ha⟩ := hu rfl
    simp only [World.step]
    rw [show (w.without a w.env.player).main = w.main from rfl]
    cases w.main with
    | nil => rfl
    | cons url rest =>
      exact congrArg (fun e => Except.ok { w.without a w.env.player with env := e, main := rest })
        (w.env.playNextVideo_without ha url)
  | background => exact congrArg Except.ok (World.background_without _ w hi.toSorted)
  | timer t =>
    obtain ⟨o, n⟩ := t
    cases o with
    | view v =>
      have hv : v ≠ a := by simpa [Event.by, Handle.of, Owner.of] using hb
      exact congrArg Except.ok (w.handle_without hv PsVideoView.timerAction
        (PsVideoView.timerAction_without _))
    | vc k =>
      exact congrArg Except.ok (w.fullHandle_without hb PsVideoFullViewVC.timerAction
        (PsVideoFullViewVC.timerAction_without _))
    | manager => rfl
  | tick t =>
    obtain ⟨o, n⟩ := t
    cases o with
    | view v =>
      obtain ⟨hcur, ha⟩ := hu rfl
      have hv : v ≠ a := by simpa [Event.by, Handle.of, Owner.of] using hb
      simp only [World.step, World.tick, w.viewAlive_without hv]
      exact w.tryHandle_without hv (PsVideoView.timeObserverCallback (w.viewAlive v))
        (PsVideoView.timeObserverCallback_without _ _ (decide_eq_false hv) hcur ha)
    | vc k =>
      have hk : k.of a = false := hb
      simp only [World.step, World.tick, w.vcAlive_without hk]
      split
      · exact w.tryFullHandle_without hk PsVideoFullViewVC.timeObserverCallback
          (PsVideoFullViewVC.timeObserverCallback_without _ (hi.outside k hk))
      · rfl
    | manager => rfl
  | itemProgress p status duration time =>
    exact congrArg Except.ok (w.updatePlayer_without (by simpa [Event.by] using hb) _)
  | itemEnd p => exact congrArg Except.ok (w.updatePlayer_without (by simpa [Event.by] using hb) _)
  | playbackError p =>
    exact congrArg Except.ok (w.updatePlayer_without (by simpa [Event.by] using hb) _)

theorem mount_without :
    (w.without a q).step accepts .mount = (w.step accepts .mount).map (·.without a q) := by
  have hv : Function.update (w.without a q).views w.nextView (.setup (.view w.nextView) .init) =
      erase (· = a) (PsVideoView.untouched a (w.nextView + 1))
        (Function.update w.views w.nextView (.setup (.view w.nextView) .init)) := by
    by_cases hn : w.nextView = a
    · -- `a` itself is mounted without doing anything
      funext u
      by_cases hu : u = a <;> simp [World.without, erase, PsVideoView.untouched, hn, hu]
    · have hsame : PsVideoView.untouched a (w.nextView + 1) = .untouched a w.nextView := by
        simp only [PsVideoView.untouched, Nat.lt_succ_iff_lt_or_eq, Ne.symm hn, or_false]
      rw [hsame]
      exact (erase_update (by simpa using hn)).symm
  exact congrArg (fun views => Except.ok { w.without a q with
    views := views
    mounted := Function.update w.mounted w.nextView true
    nextView := w.nextView + 1 }) hv

/-- What another object does, it does without `a`. -/
theorem step_without (hi : Fenced a w) (hst : Stands a q w) (he : w.enabled e)
    (hb : e.by a w = false) (hg : Apart a w e) (h : w.step accepts e = .ok w') :
    ∃ q', Stands a q' w' ∧ (w.without a q).step accepts e = .ok (w'.without a q') := by
  have hu : e.uses = true → w.env.player = q ∧ Avoids a q :=
    fun hu => ⟨hst.eq (hg.2 hb hu), hst.avoids⟩
  -- most events leave the current player alone
  have keep : w'.env.player = w.env.player →
      (w.without a q).step accepts e = (w.step accepts e).map (·.without a q) →
      ∃ q', Stands a q' w' ∧ (w.without a q).step accepts e = .ok (w'.without a q') :=
    fun hp hs => ⟨q, hst.keep hp, by rw [hs, h]; rfl⟩
  cases hq : e.quiet with
  | true => exact keep (step_quiet hq he h).player (quiet_without hi hq hb hu)
  | false =>
    cases e with
    | mount => exact keep (by cases h; rfl) mount_without
    | unmount v => exact keep (by cases h; rfl) rfl
    | property v p =>
      cases p with
      | url u =>
        have hv : v ≠ a := by simpa [Event.by] using hb
        obtain ⟨hacc, rfl⟩ := url_ok h
        refine ⟨w.env.nextPlayer v, ⟨fun x hx => ?_, .inl rfl⟩, ?_⟩
        · cases hx; exact decide_eq_false hv
        · simp only [World.step, World.setProperty, hacc, if_true]
          exact congrArg (fun e => Except.ok { w.without a q with env := e })
            (w.env.makePlayer_without hv u)
      | _ => cases hq
    | tap v c =>
      cases c with
      | fullScreen =>
        obtain ⟨s, layer, _, hf, _, hw'⟩ := fullScreen_ok h
        exact keep (by rw [hw']; exact hf.player)
          (fullScreen_without hi (by simpa [Event.by] using hb) (hu rfl).1)
      | _ => cases hq
    | viewDismissed =>
      obtain ⟨p, hp, hpa, hs⟩ := viewDismissed_without hi he hb h
      refine ⟨some p, ⟨fun x hx => ?_, .inl hp⟩, hs⟩
      cases hx; exact hpa
    | delayedBlock v =>
      have hv : v ≠ a := by simpa [Event.by] using hb
      obtain ⟨hcur, ha⟩ := hu rfl
      have hf := PsVideoView.playBlock_frame (w.scope v)
      refine keep (by cases h; exact hf.player) ?_
      obtain ⟨l, hl⟩ := List.head?_eq_some_iff.mp he
      have hd : { w.without a q with delayed := (w.without a q).delayed.tail } =
          { w with delayed := w.delayed.tail }.without a q := by
        simp [World.without, hl, hv]
      simp only [World.step]
      rw [hd]
      exact congrArg Except.ok (World.handle_without { w with delayed := w.delayed.tail } hv
        PsVideoView.playBlock (PsVideoView.playBlock_without _ (decide_eq_false hv) hcur ha))
    | _ => cases hq

end Others

/-! ## The events of `a` -/

section Own

variable {accepts : String → Bool} {a : ViewId} {q : Option PlayerId} {w w' : World} {e : Event}

theorem property_own {p : Property} (hp : ∀ u, p ≠ .url u) (hg : Apart a w (.property a p))
    (h : w.step accepts (.property a p) = .ok w') : w'.without a q = w.without a q := by
  have hcmd : (Event.property a p).commands = true → Within a w.env.player :=
    hg.1 (by simp [Event.by])
  cases p with
  | url u => exact absurd rfl (hp u)
  | paused b =>
    cases b with
    | true => cases h; exact w.put_own (.commands (.pauseAction _) (hcmd rfl))
    | false =>
      cases h
      exact w.put_own ((Unseen.commands (.call _ .play) (hcmd rfl)).trans (.controls _ _))
  | play b =>
    cases b with
    | true => cases h; simp [World.without, List.filter_append]
    | false => cases h; exact w.put_own (.commands (.pauseAction _) (hcmd rfl))
  | stop b => cases h; exact w.put_own (.commands (.stopAction _) (hcmd rfl))
  | controls b => cases h; exact w.put_own (.controls _ _)
  | maxBitRate d =>
    cases h
    exact w.put_own ((Unseen.controls _ _).trans (.commands (.setBitRate _ _) (hcmd rfl)))

/-- The session of `a` is not there without it. -/
theorem fullScreen_own (hi : Fenced a w) (he : w.enabled (.tap a .fullScreen))
    (h : w.step accepts (.tap a .fullScreen) = .ok w') : w'.without a q = w.without a q := by
  obtain ⟨s, layer, hs, _, hl, rfl⟩ := fullScreen_ok h
  have ha : (Owner.view a).of a = true := decide_eq_true rfl
  have hk : (w.nextVc a).of a = true := decide_eq_true rfl
  have hlayer : layer.of a = true := by rw [Handle.of, hi.viewLayer a layer hl]; exact ha
  have hrem : s.env.without a q = w.env.without a q :=
    (Unseen.removeTimeObserver (hi.viewToken a) hs).env ha q
  have henv : ((s.env.addObserver (.vc (w.nextVc a)) .didEnterBackground).addSublayer
      (.vc (w.nextVc a)) layer).without a q = w.env.without a q :=
    (Env.addSublayer_own _ hlayer).trans
      ((Env.addObserver_own (o := .vc (w.nextVc a)) s.env hk _).trans hrem)
  simp [World.without, World.put, henv, hk, he.2.1, Screen.without, Screen.vc, erase_update_own]

theorem viewDismissed_own (hi : Fenced a w) (he : w.enabled .viewDismissed)
    (hb : Event.by a w .viewDismissed = true) (h : w.step accepts .viewDismissed = .ok w') :
    (∃ p, w'.env.player = some p ∧ p.of a = true) ∧ w'.without a q = w.without a q := by
  obtain ⟨k, p, layer, hsc, hp, hl, rfl⟩ := viewDismissed_ok he h
  have hk : k.of a = true := by simpa [Event.by, hsc] using hb
  have hpa : p.of a = true := hi.inside k hk p hp
  have hlayer : layer.of a = true := by rw [Handle.of, hi.vcLayer k layer hl]; exact hk
  have hf := PsVideoView.viewDismissed_frame p layer
    (w.vcs k).controlsView.videoQualityButton.title
    (w.vcs k).controlsView.settingsButton.title (w.scope (w.vcs k).delegate)
  refine ⟨⟨p, hf.player, hpa⟩, ?_⟩
  have hd : (w.vcs k).delegate = a := (hi.delegate k hsc).trans (of_decide_eq_true hk)
  rw [hd]
  exact (World.put_own { w with screen := .inline }
    (PsVideoView.viewDismissed_unseen _ _ hpa hlayer)).trans
      (w.screenTo_without (Screen.without_of hb).symm)

/-- What `a` does is not seen without it. -/
theorem step_own (hi : Fenced a w) (hst : Stands a q w) (he : w.enabled e) (hb : e.by a w = true)
    (hg : Apart a w e) (h : w.step accepts e = .ok w') :
    Stands a q w' ∧ w'.without a q = w.without a q := by
  -- most events leave the current player alone
  have keep : w'.env.player = w.env.player → w'.without a q = w.without a q →
      Stands a q w' ∧ w'.without a q = w.without a q := fun hp hw => ⟨hst.keep hp, hw⟩
  have quiet : e.quiet = true → w'.without a q = w.without a q →
      Stands a q w' ∧ w'.without a q = w.without a q :=
    fun hq => keep (step_quiet hq he h).player
  cases e with
  | mount | unmount | playAnotherVideo | mainBlock | background => cases hb
  | property v p =>
    obtain rfl : v = a := by simpa [Event.by] using hb
    by_cases hp : ∃ u, p = .url u
    · obtain ⟨u, rfl⟩ := hp
      obtain ⟨_, rfl⟩ := url_ok h
      refine ⟨⟨hst.avoids, .inr ⟨_, rfl, decide_eq_true rfl⟩⟩, ?_⟩
      exact congrArg (fun e => { w.without v q with env := e }) (w.env.makePlayer_own u)
    · have hp : ∀ u, p ≠ .url u := fun u hu => hp ⟨u, hu⟩
      refine quiet ?_ (property_own hp hg h)
      cases p <;> first | rfl | exact absurd rfl (hp _)
  | tap v c =>
    obtain rfl : v = a := by simpa [Event.by] using hb
    by_cases hc : c = .fullScreen
    · subst hc
      obtain ⟨s, layer, _, hf, _, hw'⟩ := fullScreen_ok h
      exact keep (by rw [hw']; exact hf.player) (fullScreen_own hi he h)
    · refine quiet (by cases c <;> first | rfl | exact absurd rfl hc) ?_
      obtain ⟨s, hr, rfl⟩ := tap_ok hc h
      exact w.put_own (PsVideoView.control_unseen (hg.1 hb) hr)
  | fullTap c =>
    refine quiet rfl ?_
    obtain ⟨k, s, hsc, _, _, hr, rfl⟩ := fullTap_ok he h
    have hk : k.of a = true := by simpa [Event.by, hsc] using hb
    refine ((w.fullPut k s).screenTo_without ?_).trans (w.fullPut_own hk
      (PsVideoFullViewVC.control_unseen (hi.inside k hk) (hi.vcToken k) hr))
    split
    · exact (Screen.without_of (by simpa [Screen.vc] using hk)).trans (Screen.without_of hb).symm
    · rfl
  | viewDidAppear =>
    refine quiet rfl ?_
    obtain ⟨k, hsc, rfl⟩ := viewDidAppear_ok he h
    have hk : k.of a = true := by simpa [Event.by, hsc, Screen.vc] using hb
    refine (World.screenTo_without _ ?_).trans (w.fullPut_own hk
      (PsVideoFullViewVC.viewDidAppear_unseen (hi.inside k hk)))
    exact (Screen.without_of (by simpa [Screen.vc] using hk)).trans (Screen.without_of hb).symm
  | viewDismissed =>
    obtain ⟨hp, hw⟩ := viewDismissed_own hi he hb h
    exact ⟨⟨hst.avoids, .inr hp⟩, hw⟩
  | delayedBlock v =>
    obtain rfl : v = a := by simpa [Event.by] using hb
    obtain ⟨l, hl⟩ := List.head?_eq_some_iff.mp he
    have hd : { w with delayed := w.delayed.tail }.without v q = w.without v q := by
      simp [World.without, hl]
    have hf := PsVideoView.playBlock_frame (w.scope v)
    refine keep (by cases h; exact hf.player) ?_
    cases h
    exact (World.put_own { w with delayed := w.delayed.tail }
      (PsVideoView.playBlock_unseen (hg.1 hb rfl))).trans hd
  | timer t =>
    refine quiet rfl ?_
    obtain ⟨o, n⟩ := t
    cases h
    cases o with
    | view v =>
      obtain rfl : v = a := by simpa [Event.by, Handle.of, Owner.of] using hb
      exact w.put_own (PsVideoView.timerAction_unseen (hi.viewTimer v))
    | vc k => exact w.fullPut_own hb (PsVideoFullViewVC.timerAction_unseen (hi.vcTimer k))
    | manager => cases hb
  | tick t =>
    refine quiet rfl ?_
    cases tick_ok h with
    | refl => rfl
    | @view v _ _ hr =>
      obtain rfl : v = a := by simpa [Event.by, Handle.of, Owner.of] using hb
      exact w.put_own (PsVideoView.timeObserverCallback_unseen hr)
    | vc _ hr => exact w.fullPut_own hb (PsVideoFullViewVC.timeObserverCallback_unseen hr)
  | itemProgress p status duration time => cases h; exact quiet rfl (w.updatePlayer_own hb _)
  | itemEnd p => cases h; exact quiet rfl (w.updatePlayer_own hb _)
  | playbackError p => cases h; exact quiet rfl (w.updatePlayer_own hb _)

end Own

/-- **Two mounted players are isolated** as far as neither uses a player of the other. Take away all
events of view `a`: what is left is a run, with the same commands of all others. Every player that
`a` has not made ends with the same item, position, rate and peak bit rate, and the same player is
current, unless `a` has made the one that is. -/
theorem isolated {accepts : String → Bool} {a : ViewId} {es : List Event} {w : World}
    (h : Steps ((app accepts).restrict (Apart a)) .launch es w) :
    ∃ u, Steps (app accepts) .launch ((app accepts).kept (fun w e => !e.by a w) .launch es) u ∧
      u.env.calls = w.env.calls.filter (fun c => !c.caller.of a) ∧
      (∀ p, p.of a = false → u.env.players p = w.env.players p) ∧
      (Avoids a w.env.player → u.env.player = w.env.player) := by
  obtain ⟨u, hu, -, q, hst, rfl⟩ := h.purge (N := app accepts) (K := fun w e => !e.by a w)
    (R := fun w u => Fenced a w ∧ ∃ q, Stands a q w ∧ u = w.without a q)
    (fun s t e s' hr hk he hs => by
      obtain ⟨hi, q, hst, rfl⟩ := hr
      have hb : e.by a s = true := by simpa using hk
      obtain ⟨hst', hw⟩ := step_own hi hst he.1 hb he.2 hs
      exact ⟨hi.step he.1 he.2 hs, q, hst', hw.symm⟩)
    (fun s t e s' hr hk he hs => by
      obtain ⟨hi, q, hst, rfl⟩ := hr
      have hb : e.by a s = false := by simpa using hk
      obtain ⟨q', hst', hw⟩ := step_without hi hst he.1 hb he.2 hs
      exact ⟨enabled_without hb he.1, _, hw, hi.step he.1 he.2 hs, q', hst', rfl⟩)
    .launch ⟨.launch, none, ⟨.none a, .inl rfl⟩, (World.without_launch a).symm⟩
  rw [kept_restrict] at hu
  exact ⟨_, hu, rfl, fun p hp => w.env.players_without hp, fun ha => (hst.eq ha).symm⟩

/-- The first view plays and seeks its own video before the second is given one. -/
theorem isolated_session : ∃ w u, Steps ((app fun _ => true).restrict (Apart 0)) .launch
    [.mount, .mount, .property 0 (.url "a"), .property 0 (.paused false), .tap 0 .backward,
      .property 1 (.url "b"), .tap 0 .settings, .property 1 (.paused false), .tap 1 .play] w ∧
    Steps (app fun _ => true) .launch [.mount, .mount, .property 1 (.url "b"),
      .property 1 (.paused false), .tap 1 .play] u ∧
    u.env.players ⟨1, 0⟩ = w.env.players ⟨1, 0⟩ := by
  obtain ⟨w, hw, _⟩ := Steps.of_exec_map ((app fun _ => true).restrict (Apart 0)) .launch
    [.mount, .mount, .property 0 (.url "a"), .property 0 (.paused false), .tap 0 .backward,
      .property 1 (.url "b"), .tap 0 .settings, .property 1 (.paused false), .tap 1 .play]
    (fun _ => ()) (a := ()) (by decide +kernel)
  obtain ⟨u, hu, _, hp, _⟩ := isolated hw
  have hkept : (app fun _ => true).kept (fun w e => !e.by 0 w) .launch
      [.mount, .mount, .property 0 (.url "a"), .property 0 (.paused false), .tap 0 .backward,
        .property 1 (.url "b"), .tap 0 .settings, .property 1 (.paused false), .tap 1 .play] =
      [.mount, .mount, .property 1 (.url "b"), .property 1 (.paused false), .tap 1 .play] := by
    decide +kernel
  rw [hkept] at hu
  exact ⟨w, u, hw, hu, hp ⟨1, 0⟩ rfl⟩

/-- An update of the first view pauses what the second one plays. -/
theorem not_isolated : ∃ es w u, Steps (app fun _ => true) .launch es w ∧
    Steps (app fun _ => true) .launch
      ((app fun _ => true).kept (fun w e => !e.by 0 w) .launch es) u ∧
    (w.env.players ⟨1, 0⟩).rate = 0 ∧ (u.env.players ⟨1, 0⟩).rate = 1 := by
  refine ⟨[.mount, .mount, .property 1 (.url "a"), .property 1 (.paused false),
    .property 0 (.paused true)], ?_⟩
  obtain ⟨w, hw, hr⟩ := Steps.of_exec_map (app fun _ => true) .launch
    [.mount, .mount, .property 1 (.url "a"), .property 1 (.paused false),
      .property 0 (.paused true)] (fun w => (w.env.players ⟨1, 0⟩).rate)
    (a := 0) (by decide +kernel)
  obtain ⟨u, hu, hr'⟩ := Steps.of_exec_map (app fun _ => true) .launch
    [.mount, .mount, .property 1 (.url "a"), .property 1 (.paused false)]
    (fun w => (w.env.players ⟨1, 0⟩).rate) (a := 1) (by decide +kernel)
  exact ⟨w, u, hw, hu, hr, hr'⟩

end PsVideo
