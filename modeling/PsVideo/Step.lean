import PsVideo.Frame

/-!
# PsVideo.Step

What one event can do to the world. Six kinds of event change which player is current, where a
layer is, or which objects there are: mounting, unmounting, a url update, the full-screen button,
`viewDismissed` and a delayed block. Each has a lemma here that says all it does. Every other
event is `quiet`: `step_quiet`.
-/

namespace PsVideo

open World

theorem World.scope_put {w : World} {v : ViewId} {s : Scope} (h : s.me = .view v) :
    (w.put v s).scope v = s := by
  obtain ⟨me, env, self⟩ := s
  cases h
  simp [World.put, World.scope]

theorem World.put_put {w : World} {v : ViewId} {s s' : Scope} :
    (w.put v s).put v s' = w.put v s' := by
  simp [World.put]

theorem World.fullScope_fullPut {w : World} {k : VcId} {s : FullScope} (h : s.me = .vc k) :
    (w.fullPut k s).fullScope k = s := by
  obtain ⟨me, env, self⟩ := s
  cases h
  simp [World.fullPut, World.fullScope]

/-- The full-screen button of a view has made controller `k`. -/
def World.Made (w : World) (k : VcId) : Prop := k.serial < w.vcCount k.view

instance (w : World) (k : VcId) : Decidable (w.Made k) := inferInstanceAs (Decidable (_ < _))

theorem World.not_made_nextVc (w : World) (v : ViewId) : ¬ w.Made (w.nextVc v) :=
  Nat.lt_irrefl _

theorem World.made_of_count {w w' : World} {v : ViewId}
    (h : w'.vcCount = Function.update w.vcCount v (w.vcCount v + 1)) (k : VcId) :
    w'.Made k ↔ w.Made k ∨ k = w.nextVc v := by
  obtain ⟨u, n⟩ := k
  by_cases hu : u = v
  · subst hu
    have hc : w'.vcCount u = w.vcCount u + 1 := by rw [h, Function.update_self]
    simp only [World.Made, World.nextVc, hc, VcId.mk.injEq, true_and]
    omega
  · simp [World.Made, World.nextVc, h, hu]

/-- What a tick does that does not trap: the callback of one object, or nothing. -/
inductive Ticks (w : World) : Handle → World → Prop where
  | refl {t : Handle} : Ticks w t w
  | view {v : ViewId} {n : ℕ} {s : Scope} :
      PsVideoView.timeObserverCallback (w.viewAlive v) (w.scope v) = .ok s →
      Ticks w ⟨.view v, n⟩ (w.put v s)
  | vc {k : VcId} {n : ℕ} {s : FullScope} : w.vcAlive k = true →
      PsVideoFullViewVC.timeObserverCallback (w.fullScope k) = .ok s →
      Ticks w ⟨.vc k, n⟩ (w.fullPut k s)

theorem tick_ok {w w' : World} {t : Handle} (h : w.tick t = .ok w') : Ticks w t w' := by
  obtain ⟨o, n⟩ := t
  unfold World.tick at h
  cases o with
  | view v =>
    cases hr : PsVideoView.timeObserverCallback (w.viewAlive v) (w.scope v) with
    | error t => simp only [hr] at h; cases h
    | ok s => simp only [hr] at h; cases h; exact .view hr
  | vc k =>
    dsimp only at h
    split at h
    · rename_i ha
      cases hr : PsVideoFullViewVC.timeObserverCallback (w.fullScope k) with
      | error t => rw [hr] at h; cases h
      | ok s => rw [hr] at h; cases h; exact .vc ha hr
    · cases h; exact .refl
  | manager => cases h; exact .refl

/-- What a timer or a tick does: a handler of one object, which is silent. -/
inductive SilentStep (w : World) : World → Prop where
  | refl : SilentStep w w
  | put {v : ViewId} {s : Scope} : Silent (w.scope v) s → SilentStep w (w.put v s)
  | fullPut {k : VcId} {s : FullScope} : FullFrame (w.fullScope k) s →
      Silent (w.fullScope k).scope s.scope → SilentStep w (w.fullPut k s)

theorem SilentStep.timer (w : World) (t : Handle) : SilentStep w (w.timer t) := by
  unfold World.timer
  split
  · exact .put (PsVideoView.timerAction_silent _)
  · exact .fullPut (PsVideoFullViewVC.timerAction_frame _) (PsVideoFullViewVC.timerAction_silent _)
  · exact .refl

theorem SilentStep.tick {w w' : World} {t : Handle} (h : w.tick t = .ok w') : SilentStep w w' := by
  cases tick_ok h with
  | refl => exact .refl
  | view hr => exact .put (PsVideoView.timeObserverCallback_silent hr)
  | vc _ hr =>
    exact .fullPut (PsVideoFullViewVC.timeObserverCallback_frame hr)
      (PsVideoFullViewVC.timeObserverCallback_silent hr)

theorem SilentStep.screen {w w' : World} (h : SilentStep w w') : w'.screen = w.screen := by
  cases h <;> rfl

structure Quiet (w w' : World) : Prop where
  player : w'.env.player = w.env.player
  playerCount : w'.env.playerCount = w.env.playerCount
  layerPlayer : w'.env.layerPlayer = w.env.layerPlayer
  superlayer : w'.env.superlayer = w.env.superlayer
  backgroundObservers : w'.env.backgroundObservers = w.env.backgroundObservers
  mounted : w'.mounted = w.mounted
  delayed : ∀ v ∈ w'.delayed, v ∈ w.delayed ∨ w.mounted v = true
  nextView : w'.nextView = w.nextView
  vcCount : w'.vcCount = w.vcCount
  screen : w'.screen.vc = w.screen.vc
  viewLayer : ∀ v, (w'.views v).playerLayer = (w.views v).playerLayer
  vcPlayer : ∀ k, (w'.vcs k).player = (w.vcs k).player
  vcLayer : ∀ k, (w'.vcs k).playerLayer = (w.vcs k).playerLayer
  vcDelegate : ∀ k, (w'.vcs k).delegate = (w.vcs k).delegate
  viewOwns : ∀ v, Owns (.view v) (w.views v) (w'.views v)
  vcOwns : ∀ k, Owns (.vc k) (w.vcs k).toController (w'.vcs k).toController
  viewControls : ∀ v, (w'.views v).controlsDelegate = (w.views v).controlsDelegate
  vcControls : ∀ k, (w'.vcs k).controlsDelegate = (w.vcs k).controlsDelegate

theorem World.moved_updatePlayer (w : World) (p : PlayerId) (f : AVPlayer → AVPlayer) :
    w.env.Moved f (w.updatePlayer p f).env where
  player := rfl
  players q := by
    by_cases hqp : q = p
    · subst hqp; exact .inr (Function.update_self _ _ _)
    · exact .inl (Function.update_of_ne hqp _ _)

namespace Quiet

theorem refl (w : World) : Quiet w w where
  player := rfl
  playerCount := rfl
  layerPlayer := rfl
  superlayer := rfl
  backgroundObservers := rfl
  mounted := rfl
  delayed _ := .inl
  nextView := rfl
  vcCount := rfl
  screen := rfl
  viewLayer _ := rfl
  vcPlayer _ := rfl
  vcLayer _ := rfl
  vcDelegate _ := rfl
  viewOwns _ := .refl _
  vcOwns _ := .refl _
  viewControls _ := rfl
  vcControls _ := rfl

theorem trans {w w' w'' : World} (h₁ : Quiet w w') (h₂ : Quiet w' w'') : Quiet w w'' where
  player := h₂.player.trans h₁.player
  playerCount := h₂.playerCount.trans h₁.playerCount
  layerPlayer := h₂.layerPlayer.trans h₁.layerPlayer
  superlayer := h₂.superlayer.trans h₁.superlayer
  backgroundObservers := h₂.backgroundObservers.trans h₁.backgroundObservers
  mounted := h₂.mounted.trans h₁.mounted
  delayed v hv := by
    rcases h₂.delayed v hv with hv | hv
    · exact h₁.delayed v hv
    · rw [h₁.mounted] at hv; exact .inr hv
  nextView := h₂.nextView.trans h₁.nextView
  vcCount := h₂.vcCount.trans h₁.vcCount
  screen := h₂.screen.trans h₁.screen
  viewLayer v := (h₂.viewLayer v).trans (h₁.viewLayer v)
  vcPlayer k := (h₂.vcPlayer k).trans (h₁.vcPlayer k)
  vcLayer k := (h₂.vcLayer k).trans (h₁.vcLayer k)
  vcDelegate k := (h₂.vcDelegate k).trans (h₁.vcDelegate k)
  viewOwns v := (h₁.viewOwns v).trans (h₂.viewOwns v)
  vcOwns k := (h₁.vcOwns k).trans (h₂.vcOwns k)
  viewControls v := (h₂.viewControls v).trans (h₁.viewControls v)
  vcControls k := (h₂.vcControls k).trans (h₁.vcControls k)

/-- A handler of view `v`. -/
theorem put {w : World} {v : ViewId} {s : Scope} (h : Frame (w.scope v) s) :
    Quiet w (w.put v s) :=
  { refl w with
    player := h.player
    playerCount := h.playerCount
    layerPlayer := h.layerPlayer
    superlayer := h.superlayer
    backgroundObservers := h.backgroundObservers
    viewLayer := fun u => by
      by_cases hu : u = v
      · subst hu; simpa [World.put, World.scope] using h.playerLayer
      · simp [World.put, Function.update_of_ne hu]
    viewOwns := fun u => by
      by_cases hu : u = v
      · subst hu; simpa [World.put, World.scope] using h.owns
      · simpa [World.put, Function.update_of_ne hu] using Owns.refl (w.views u)
    viewControls := fun u => by
      by_cases hu : u = v
      · subst hu; simpa [World.put, World.scope] using h.controlsDelegate
      · simp [World.put, Function.update_of_ne hu] }

/-- A handler of controller `k`. -/
theorem fullPut {w : World} {k : VcId} {s : FullScope} (h : FullFrame (w.fullScope k) s) :
    Quiet w (w.fullPut k s) :=
  { refl w with
    player := h.frame.player
    playerCount := h.frame.playerCount
    layerPlayer := h.frame.layerPlayer
    superlayer := h.frame.superlayer
    backgroundObservers := h.frame.backgroundObservers
    vcPlayer := fun j => by
      by_cases hj : j = k
      · subst hj; simpa [World.fullPut, World.fullScope] using h.player
      · simp [World.fullPut, Function.update_of_ne hj]
    vcLayer := fun j => by
      by_cases hj : j = k
      · subst hj; simpa [World.fullPut, World.fullScope, FullScope.scope] using h.frame.playerLayer
      · simp [World.fullPut, Function.update_of_ne hj]
    vcDelegate := fun j => by
      by_cases hj : j = k
      · subst hj; simpa [World.fullPut, World.fullScope] using h.delegate
      · simp [World.fullPut, Function.update_of_ne hj]
    vcOwns := fun j => by
      by_cases hj : j = k
      · subst hj; simpa [World.fullPut, World.fullScope, FullScope.scope] using h.frame.owns
      · simpa [World.fullPut, Function.update_of_ne hj] using Owns.refl (w.vcs j).toController
    vcControls := fun j => by
      by_cases hj : j = k
      · subst hj
        simpa [World.fullPut, World.fullScope, FullScope.scope] using h.frame.controlsDelegate
      · simp [World.fullPut, Function.update_of_ne hj] }

/-- The screen moves on without another controller taking it. -/
theorem screenTo {w : World} {screen : Screen} (h : screen.vc = w.screen.vc) :
    Quiet w { w with screen := screen } := { refl w with screen := h }

/-- A mounted view schedules a delayed block. -/
theorem schedule {w : World} {v : ViewId} (h : w.mounted v = true) :
    Quiet w { w with delayed := w.delayed ++ [v] } :=
  { refl w with
    delayed := fun u hu => by
      rcases List.mem_append.mp hu with hu | hu
      · exact .inl hu
      · rw [List.mem_singleton] at hu; subst hu; exact .inr h }

theorem updatePlayer (w : World) (p : PlayerId) (f : AVPlayer → AVPlayer) :
    Quiet w (w.updatePlayer p f) := { refl w with }

theorem notifyBackground (w : World) (r : Registration) : Quiet w (w.notifyBackground r) := by
  unfold World.notifyBackground
  split
  · split
    · exact fullPut (PsVideoFullViewVC.pauseAction_frame _)
    · exact refl w
  · exact refl w

theorem background (l : List Registration) :
    ∀ w : World, Quiet w (l.foldl World.notifyBackground w) := by
  induction l with
  | nil => exact refl
  | cons r l ih => exact fun w => (notifyBackground w r).trans (ih _)

theorem silent {w w' : World} (h : SilentStep w w') : Quiet w w' := by
  cases h with
  | refl => exact refl w
  | put h => exact put h.toFrame
  | fullPut hf _ => exact fullPut hf

end Quiet

def Event.quiet : Event → Bool
  | .mount | .unmount _ | .property _ (.url _) | .tap _ .fullScreen | .viewDismissed
  | .delayedBlock _ => false
  | _ => true

section Inversion

variable {accepts : String → Bool} {w w' : World}

/-- An update of another property than `url` schedules a block or commands the player. -/
theorem property_ok {v : ViewId} {p : Property} (hp : ∀ u, p ≠ .url u)
    (h : w.step accepts (.property v p) = .ok w') :
    w' = { w with delayed := w.delayed ++ [v] } ∨
      ∃ s, Commands w.env.player (w.scope v) s ∧ w' = w.put v s := by
  cases p with
  | url u => exact absurd rfl (hp u)
  | paused b =>
    cases b with
    | true => cases h; exact .inr ⟨_, .pauseAction _, rfl⟩
    | false => cases h; exact .inr ⟨_, (Commands.call _ .play).trans (.controls _ _), rfl⟩
  | play b =>
    cases b with
    | true => cases h; exact .inl rfl
    | false => cases h; exact .inr ⟨_, .pauseAction _, rfl⟩
  | stop b => cases h; exact .inr ⟨_, .stopAction _, rfl⟩
  | controls b => cases h; exact .inr ⟨_, .controls _ _, rfl⟩
  | maxBitRate d => cases h; exact .inr ⟨_, (Commands.controls _ _).trans (.setBitRate _ _), rfl⟩

theorem tap_eq {v : ViewId} {c : Control} (hc : c ≠ .fullScreen) :
    w.tap v c = w.tryPut v (PsVideoView.control c (w.scope v)) := by
  cases c <;> first | rfl | exact absurd rfl hc

theorem tap_ok {v : ViewId} {c : Control} (hc : c ≠ .fullScreen)
    (h : w.step accepts (.tap v c) = .ok w') :
    ∃ s, PsVideoView.control c (w.scope v) = .ok s ∧ w' = w.put v s := by
  simp only [World.step, tap_eq hc] at h
  cases hr : PsVideoView.control c (w.scope v) with
  | error t => rw [hr] at h; cases h
  | ok s => rw [hr] at h; cases h; exact ⟨s, rfl, rfl⟩

theorem fullTap_ok {c : Control} (he : w.enabled (.fullTap c))
    (h : w.step accepts (.fullTap c) = .ok w') :
    ∃ k s, w.screen.vc = some k ∧ w.screen ≠ .presenting k ∧
      (w.vcs k).controlsView.canTap c ∧ PsVideoFullViewVC.control c (w.fullScope k) = .ok s ∧
      w' = { w.fullPut k s with screen := if c = .fullScreen then .dismissing k else w.screen } := by
  -- the tap is of the controller that is shown
  have hk : ∃ k, w.screen.vc = some k ∧ w.screen ≠ .presenting k ∧
      (w.vcs k).controlsView.canTap c := by
    cases hsc : w.screen with
    | inline | presenting k => simp only [World.enabled, hsc] at he
    | presented k | dismissing k =>
      simp only [World.enabled, hsc] at he
      exact ⟨k, rfl, by simp, he⟩
  obtain ⟨k, hk, hp, hc⟩ := hk
  simp only [World.step, hk, World.fullTap, World.tryFullPut] at h
  cases hs : PsVideoFullViewVC.control c (w.fullScope k) with
  | error t => rw [hs] at h; cases h
  | ok s =>
    rw [hs] at h
    refine ⟨k, s, hk, hp, hc, hs, ?_⟩
    cases h
    split <;> rfl

theorem viewDidAppear_ok (he : w.enabled .viewDidAppear)
    (h : w.step accepts .viewDidAppear = .ok w') :
    ∃ k, w.screen = .presenting k ∧
      w' = { w.fullPut k (PsVideoFullViewVC.viewDidAppear (w.fullScope k)) with
        screen := .presented k } := by
  cases hsc : w.screen with
  | presenting k =>
    simp only [World.step, hsc, Screen.vc] at h
    cases h
    exact ⟨k, rfl, rfl⟩
  | inline | presented k | dismissing k => simp only [World.enabled, hsc] at he

theorem mainBlock_ok (he : w.enabled .mainBlock) (h : w.step accepts .mainBlock = .ok w') :
    ∃ url rest, w.main = url :: rest ∧
      w' = { w with env := PsVideoView.playNextVideo url w.env, main := rest } := by
  cases hm : w.main with
  | nil => exact absurd hm he
  | cons url rest =>
    simp only [World.step, hm] at h
    cases h
    exact ⟨url, rest, rfl, rfl⟩

theorem step_quiet {e : Event} (hq : e.quiet = true) (he : w.enabled e)
    (h : w.step accepts e = .ok w') : Quiet w w' := by
  cases e with
  | mount | unmount | viewDismissed | delayedBlock => cases hq
  | property v p =>
    obtain rfl | ⟨s, hc, rfl⟩ := property_ok (by rintro u rfl; cases hq) h
    · exact .schedule he
    · exact .put hc.toFrame
  | tap v c =>
    obtain ⟨s, hs, rfl⟩ := tap_ok (by rintro rfl; cases hq) h
    exact .put (PsVideoView.control_frame hs)
  | fullTap c =>
    obtain ⟨k, s, hk, _, _, hs, rfl⟩ := fullTap_ok he h
    refine (Quiet.fullPut (PsVideoFullViewVC.control_frame hs)).trans (.screenTo ?_)
    split
    · exact hk.symm
    · rfl
  | viewDidAppear =>
    obtain ⟨k, hk, rfl⟩ := viewDidAppear_ok he h
    refine (Quiet.fullPut (PsVideoFullViewVC.viewDidAppear_frame _)).trans (.screenTo ?_)
    exact (congrArg Screen.vc hk).symm
  | playAnotherVideo url => cases h; exact { Quiet.refl w with }
  | mainBlock =>
    obtain ⟨_, _, _, rfl⟩ := mainBlock_ok he h
    exact { Quiet.refl w with }
  | background => cases h; exact .background _ w
  | timer t => cases h; exact .silent (.timer w t)
  | tick t => exact .silent (.tick h)
  | itemProgress p status duration time => cases h; exact .updatePlayer w p _
  | itemEnd p => cases h; exact .updatePlayer w p _
  | playbackError p => cases h; exact .updatePlayer w p _

end Inversion

/-- A run of quiet events. -/
theorem quiet_steps {accepts : String → Bool} {es : List Event} : ∀ {w w' : World},
    (∀ e ∈ es, e.quiet = true) → Machine.Steps (app accepts) w es w' → Quiet w w' := by
  induction es with
  | nil =>
    intro w w' _ h
    rw [h.nil_inv]
    exact .refl w
  | cons e es ih =>
    intro w w' hq h
    cases h with
    | cons he hs hr =>
      have h1 := step_quiet (hq e (by simp)) he hs
      exact h1.trans (ih (fun e he => hq e (List.mem_cons_of_mem _ he)) hr)

theorem World.vcAlive_congr {w w' : World} (hs : w'.screen = w.screen)
    (ht : w'.env.timers = w.env.timers)
    (hd : ∀ k, (w'.vcs k).controlsDelegate = (w.vcs k).controlsDelegate) :
    w'.vcAlive = w.vcAlive := by
  funext k
  simp only [World.vcAlive, hs, ht, hd]

/-- The rule for the background notification: what pausing a notified controller's player keeps,
the whole notification keeps. -/
theorem background_rule {P : World → Prop} {w : World} (h0 : P w)
    (hstep : ∀ w' k, k ∈ w.notified → w'.env.timers = w.env.timers → w'.screen = w.screen → P w' →
      P (w'.fullPut k (PsVideoFullViewVC.appMovedToBackground (w'.fullScope k)))) :
    P (w.env.registrations.foldl World.notifyBackground w) := by
  suffices h : ∀ (l : List Registration), (∀ r ∈ l, r ∈ w.env.registrations) → ∀ w' : World,
      w'.env.timers = w.env.timers → w'.screen = w.screen →
      (∀ k, (w'.vcs k).controlsDelegate = (w.vcs k).controlsDelegate) → P w' →
      P (l.foldl World.notifyBackground w') from h _ (fun _ => id) w rfl rfl (fun _ => rfl) h0
  intro l
  induction l with
  | nil => exact fun _ _ _ _ _ hp => hp
  | cons r l ih =>
    intro hl w' ht hs hd hp
    have hl' : ∀ r ∈ l, r ∈ w.env.registrations := fun r hr => hl r (List.mem_cons_of_mem _ hr)
    simp only [List.foldl_cons, World.notifyBackground]
    split
    · rename_i k hk
      split
      · rename_i ha
        have hn : k ∈ w.notified := by
          refine List.mem_filter.mpr ⟨List.mem_filterMap.mpr ⟨r, hl r (by simp), hk⟩, ?_⟩
          rwa [World.vcAlive_congr hs ht hd] at ha
        have hc := Commands.pauseAction (p := (w'.vcs k).player) (w'.fullScope k).scope
        have hq : Quiet w' (w'.fullPut k (PsVideoFullViewVC.appMovedToBackground (w'.fullScope k))) :=
          .fullPut (PsVideoFullViewVC.pauseAction_frame _)
        exact ih hl' _ (hc.timers.trans ht) hs (fun j => (hq.vcControls j).trans (hd j))
          (hstep w' k hn ht hs hp)
      · exact ih hl' w' ht hs hd hp
    · exact ih hl' w' ht hs hd hp

theorem background_screen (w : World) :
    (w.env.registrations.foldl World.notifyBackground w).screen = w.screen :=
  background_rule (P := fun w' => w'.screen = w.screen) rfl fun _ _ _ _ _ hi => hi

/-! ## The events that are not quiet -/

theorem url_ok {accepts : String → Bool} {w w' : World} {v : ViewId} {u : String}
    (h : w.step accepts (.property v (.url u)) = .ok w') :
    accepts u = true ∧ w' = { w with env := w.env.makePlayer v u } := by
  simp only [World.step, World.setProperty] at h
  split at h
  · rename_i hu; cases h; exact ⟨hu, rfl⟩
  · cases h

/-- The controller that `fullScreenAction` presents. -/
def presentedVC (s : Scope) (k : VcId) (v : ViewId) : PsVideoFullViewVC :=
  { player := s.env.player, delegate := v, playerLayer := s.self.playerLayer,
    controlsDelegate := some (.vc k),
    playerSpeed := s.self.playerSpeed, playerQuality := s.self.playerQuality,
    viewToTapIsHidden := true }

/-- The full-screen button removes the observer, clears the field, and moves the layer to the new
controller, which registers for the background notification. -/
theorem fullScreen_ok {accepts : String → Bool} {w w' : World} {v : ViewId}
    (h : w.step accepts (.tap v .fullScreen) = .ok w') :
    ∃ s layer, PsVideoView.removeObservers (w.scope v) = .ok s ∧ Frame (w.scope v) s ∧
      (w.views v).playerLayer = some layer ∧
      w' = { w.put v { s with
          env := (s.env.addObserver (.vc (w.nextVc v)) .didEnterBackground).addSublayer
            (.vc (w.nextVc v)) layer
          self := { s.self with timeObserver := none } } with
        vcs := Function.update w.vcs (w.nextVc v) (presentedVC (w.scope v) (w.nextVc v) v)
        vcCount := Function.update w.vcCount v (w.vcCount v + 1)
        screen := .presenting (w.nextVc v) } := by
  simp only [World.step, World.tap, PsVideoView.fullScreenAction] at h
  cases hs : PsVideoView.removeObservers (w.scope v) with
  | error t => rw [hs] at h; cases h
  | ok s =>
    have hf : Frame (w.scope v) s := .removeTimeObserver hs
    rw [hs] at h
    simp only at h
    cases hl : s.self.playerLayer with
    | none => rw [hl] at h; cases h
    | some layer =>
      rw [hl] at h
      cases h
      refine ⟨s, layer, rfl, hf, hf.playerLayer.symm.trans hl, ?_⟩
      simp only [hl]
      rfl

/-- `viewDismissed` first takes over the player, the layer and the two titles, then acts within
`Frame`. -/
theorem viewDismissed_ok {accepts : String → Bool} {w w' : World} (he : w.enabled .viewDismissed)
    (h : w.step accepts .viewDismissed = .ok w') :
    ∃ k p layer, w.screen.vc = some k ∧ (w.vcs k).player = some p ∧
      (w.vcs k).playerLayer = some layer ∧
      w' = { w with screen := .inline }.put (w.vcs k).delegate (PsVideoView.viewDismissed p layer
        (w.vcs k).controlsView.videoQualityButton.title
        (w.vcs k).controlsView.settingsButton.title (w.scope (w.vcs k).delegate)) := by
  cases hsc : w.screen with
  | dismissing k =>
    simp only [World.step, hsc, Screen.vc, World.viewDismissed] at h
    split at h
    · rename_i p layer hp hl
      cases h
      exact ⟨k, p, layer, rfl, hp, hl, rfl⟩
    · cases h
  | inline | presenting k | presented k => simp only [World.enabled, hsc] at he

/-- The events that open a full-screen session or arrive during one. -/
def Event.session : Event → Bool
  | .tap _ .fullScreen | .fullTap _ | .viewDidAppear => true
  | _ => false

/-- Such an event leaves the player current and does not end with the inline view on the screen. -/
theorem step_session {accepts : String → Bool} {w w' : World} {e : Event} (hv : e.session = true)
    (he : w.enabled e) (h : w.step accepts e = .ok w') :
    w'.env.player = w.env.player ∧ w'.screen ≠ .inline := by
  cases e with
  | tap v c =>
    cases c with
    | fullScreen =>
      obtain ⟨s, layer, _, hf, _, rfl⟩ := fullScreen_ok h
      exact ⟨hf.player, (fun hin => by cases hin)⟩
    | _ => cases hv
  | fullTap c =>
    obtain ⟨k, s, hk, _, _, hr, rfl⟩ := fullTap_ok he h
    refine ⟨(PsVideoFullViewVC.control_frame hr).frame.player, fun hin => ?_⟩
    by_cases hc : c = .fullScreen
    · simp [hc] at hin
    · simp only [hc, if_false] at hin
      rw [hin] at hk; cases hk
  | viewDidAppear =>
    obtain ⟨k, _, rfl⟩ := viewDidAppear_ok he h
    have hf := PsVideoFullViewVC.viewDidAppear_frame (w.fullScope k)
    exact ⟨hf.frame.player, (fun hin => by cases hin)⟩
  | _ => cases hv

namespace PsVideoView

theorem viewDismissed_frame (p : PlayerId) (layer : Handle) (quality speed : String) (s : Scope) :
    Frame (receive p layer quality speed s) (viewDismissed p layer quality speed s) := by
  unfold viewDismissed
  dsimp only
  split
  · exact (((((Commands.call _ _).trans (.controls _ _)).toFrame.trans (.addTimeObserver _ _)).trans
      (.startTimer _)).trans (Commands.setVideoSpeed _ _).toFrame).trans
      (Commands.setVideoQuality _ _).toFrame
  · exact (Commands.pauseAction _).toFrame

theorem playBlock_frame (s : Scope) : Frame (initVideoPlayer s) (playBlock s) :=
  playAction_frame _

end PsVideoView

/-- Only a url update and the end of a session assign the current player. -/
theorem step_player {accepts : String → Bool} {w w' : World} {e : Event} (he : w.enabled e)
    (h : w.step accepts e = .ok w') : w'.env.player = w.env.player ∨
      (∃ v u, e = .property v (.url u) ∧ w'.env.player = some (w.env.nextPlayer v)) ∨
      ∃ k, e = .viewDismissed ∧ w.screen.vc = some k ∧ w'.env.player = (w.vcs k).player := by
  cases hq : e.quiet with
  | true => exact .inl (step_quiet hq he h).player
  | false =>
    cases e with
    | mount | unmount v => cases h; exact .inl rfl
    | property v p =>
      cases p with
      | url u => obtain ⟨_, rfl⟩ := url_ok h; exact .inr (.inl ⟨v, u, rfl, rfl⟩)
      | _ => cases hq
    | tap v c =>
      cases c with
      | fullScreen => obtain ⟨s, layer, _, hf, _, rfl⟩ := fullScreen_ok h; exact .inl hf.player
      | _ => cases hq
    | viewDismissed =>
      obtain ⟨k, p, layer, hk, hp, _, rfl⟩ := viewDismissed_ok he h
      have hf := PsVideoView.viewDismissed_frame p layer
        (w.vcs k).controlsView.videoQualityButton.title
        (w.vcs k).controlsView.settingsButton.title (w.scope (w.vcs k).delegate)
      exact .inr (.inr ⟨k, rfl, hk, hf.player.trans hp.symm⟩)
    | delayedBlock v => cases h; exact .inl (PsVideoView.playBlock_frame (w.scope v)).player
    | _ => cases hq

end PsVideo
