import PsVideo.OneView
import PsVideo.Traps

/-!
# PsVideo.Observers

The periodic time observers. A token is registered with one player and remembered in one field,
`timeObserver`; `removeTimeObserver` raises an exception unless it is sent to that player while the
token is registered.

* `OwnsOne p s`: all that the object of `s` has registered is the token in its field, on `p`.
* `Tidies p s s'`: what every handler does to this; `TidiesLive` adds that a live field stays so,
  which fails only of the two full-screen buttons.
* `ObserverSafe`: the three places where the source loses track of a token, excluded: the setter of
  `url` with a live token, `viewDismissed` with one, and a second `backAction`.
-/

namespace PsVideo

open Machine

structure OwnsOne (p : Option PlayerId) (s : Scope) : Prop where
  own : ∀ o ∈ s.env.observers, o.token.owner = s.me →
    s.self.timeObserver = some o.token ∧ p = some o.player
  token : ∀ t, s.self.timeObserver = some t → t.owner = s.me

/-- The token in the field is registered. -/
def FieldLive (s : Scope) : Prop := ∀ t ∈ s.self.timeObserver, s.env.registered t = true

instance (s : Scope) : Decidable (FieldLive s) :=
  inferInstanceAs (Decidable (∀ t ∈ s.self.timeObserver, _))

theorem OwnsOne.transfer {p : Option PlayerId} {s s' : Scope} (h : OwnsOne p s)
    (hm : s'.me = s.me) (ht : s'.self.timeObserver = s.self.timeObserver)
    (ho : ∀ o, o.token.owner = s.me → o ∈ s'.env.observers → o ∈ s.env.observers) :
    OwnsOne p s' :=
  ⟨fun o hmem hown => by
      rw [hm] at hown
      rw [ht]; exact h.own o (ho o hown hmem) hown,
    fun t htk => by rw [hm]; exact h.token t (ht ▸ htk)⟩

theorem FieldLive.transfer {s s' : Scope} (h : FieldLive s)
    (htok : ∀ t, s.self.timeObserver = some t → t.owner = s.me)
    (ht : s'.self.timeObserver = s.self.timeObserver)
    (ho : ∀ o, o.token.owner = s.me → o ∈ s.env.observers → o ∈ s'.env.observers) :
    FieldLive s' := by
  intro t htk
  rw [ht] at htk
  obtain ⟨o, hmem, hot⟩ := List.any_eq_true.mp (h t htk)
  have hown : o.token.owner = s.me := by
    rw [show o.token = t by simpa using hot]; exact htok t htk
  exact List.any_eq_true.mpr ⟨o, ho o hown hmem, hot⟩

structure Tidies (p : Option PlayerId) (s s' : Scope) : Prop where
  me : s'.me = s.me
  others : ∀ o, o.token.owner ≠ s.me → (o ∈ s'.env.observers ↔ o ∈ s.env.observers)
  nodup : OwnsOne p s → s.env.observers.Nodup → s'.env.observers.Nodup
  owns : OwnsOne p s → OwnsOne p s'

structure TidiesLive (p : Option PlayerId) (s s' : Scope) : Prop extends Tidies p s s' where
  live : FieldLive s → FieldLive s'

namespace TidiesLive

variable {p : Option PlayerId}

/-- A handler that touches neither the list nor the field. -/
theorem kept {s s' : Scope} (hm : s'.me = s.me) (ho : s'.env.observers = s.env.observers)
    (ht : s'.self.timeObserver = s.self.timeObserver) : TidiesLive p s s' where
  me := hm
  others o _ := by rw [ho]
  nodup _ hn := by rw [ho]; exact hn
  owns h := ⟨fun o hmem hown => by rw [ht]; exact h.own o (ho ▸ hmem) (hown.trans hm),
    fun t htk => by rw [hm]; exact h.token t (ht ▸ htk)⟩
  live h t htk := by unfold Env.registered; rw [ho]; exact h t (ht ▸ htk)

theorem refl (s : Scope) : TidiesLive p s s := kept rfl rfl rfl

theorem trans {s s' s'' : Scope} (h₁ : TidiesLive p s s') (h₂ : TidiesLive p s' s'') :
    TidiesLive p s s'' where
  me := h₂.me.trans h₁.me
  others o ho := (h₂.others o (h₁.me ▸ ho)).trans (h₁.others o ho)
  nodup h hn := h₂.nodup (h₁.owns h) (h₁.nodup h hn)
  owns h := h₂.owns (h₁.owns h)
  live h := h₂.live (h₁.live h)

theorem commands {q : Option PlayerId} {s s' : Scope} (h : Commands q s s') : TidiesLive p s s' :=
  kept h.me h.observers h.timeObserver

theorem silent {s s' : Scope} (h : Silent s s') : TidiesLive p s s' :=
  kept h.me h.observers h.timeObserver

/-- Adding is fine when the field is empty: nothing else is registered then. -/
theorem addTimeObserver {s : Scope} (h : s.self.timeObserver = none) :
    TidiesLive p s (s.addTimeObserver p) := by
  cases p with
  | none => exact kept rfl rfl h.symm
  | some q =>
    refine ⟨⟨rfl, fun o ho => ?_, fun hs hn => ?_, fun hs => ⟨fun o hmem hown => ?_, fun t ht => ?_⟩⟩,
      fun _ t ht => ?_⟩
    · simp only [Scope.addTimeObserver, Env.addPeriodicTimeObserver, List.mem_append,
        List.mem_singleton, or_iff_left_iff_imp]
      rintro rfl
      exact absurd rfl ho
    · refine List.nodup_append.mpr ⟨hn, List.pairwise_singleton _ _, fun o hmem o' hmem' heq => ?_⟩
      rw [List.mem_singleton] at hmem'
      subst hmem'; subst heq
      have := (hs.own _ hmem rfl).1
      rw [h] at this; cases this
    · rcases List.mem_append.mp hmem with hmem | hmem
      · have := (hs.own o hmem hown).1
        rw [h] at this; cases this
      · rw [List.mem_singleton] at hmem; subst hmem; exact ⟨rfl, rfl⟩
    · cases ht; rfl
    · cases ht
      simp [Env.registered, Scope.addTimeObserver, Env.addPeriodicTimeObserver]

end TidiesLive

/-- Removing the token of the field leaves nothing registered, and cannot fail. -/
theorem OwnsOne.remove {p : Option PlayerId} {s s' : Scope} (h : OwnsOne p s)
    (hs : s.removeTimeObserver p = .ok s') :
    (∀ o ∈ s'.env.observers, o.token.owner ≠ s.me) ∧
      (∀ o, o.token.owner ≠ s.me → (o ∈ s'.env.observers ↔ o ∈ s.env.observers)) ∧
      s'.self.timeObserver = s.self.timeObserver := by
  unfold Scope.removeTimeObserver at hs
  split at hs
  · rename_i t q ht
    unfold Env.removeTimeObserver at hs
    split at hs
    · cases hs
    · rename_i env hr
      split at hr
      · cases hr; cases hs
        refine ⟨fun o hmem hown => ?_, fun o ho => ?_, rfl⟩
        · -- an own observer is the one removed
          simp only [List.mem_filter, decide_eq_true_eq] at hmem
          obtain ⟨h1, h2⟩ := h.own o hmem.1 hown
          rw [ht] at h1
          cases h1; cases h2
          exact hmem.2 rfl
        · simp only [List.mem_filter, decide_eq_true_eq, and_iff_left_iff_imp]
          rintro _ rfl
          exact ho (h.token t ht)
      · cases hr
  · rename_i hne
    cases hs
    refine ⟨fun o hmem hown => ?_, fun o _ => .rfl, rfl⟩
    obtain ⟨h1, h2⟩ := h.own o hmem hown
    exact hne _ _ h1 h2

theorem removeTimeObserver_sublist {p : Option PlayerId} {s s' : Scope}
    (h : s.removeTimeObserver p = .ok s') : s'.env.observers.Sublist s.env.observers := by
  unfold Scope.removeTimeObserver Env.removeTimeObserver at h
  split at h
  · split at h
    · cases h
    · rename_i hr
      split at hr
      · cases hr; cases h; exact List.filter_sublist
      · cases hr
  · cases h; exact .refl _

theorem OwnsOne.remove_tidies {p : Option PlayerId} {s s' : Scope} (h : OwnsOne p s)
    (hs : s.removeTimeObserver p = .ok s') : Tidies p s s' := by
  obtain ⟨hnone, hothers, ht⟩ := h.remove hs
  have hm : s'.me = s.me := (Frame.removeTimeObserver hs).me
  have hnd : s.env.observers.Nodup → s'.env.observers.Nodup := (removeTimeObserver_sublist hs).nodup
  exact ⟨hm, hothers, fun _ => hnd, fun _ => ⟨fun o hmem hown => absurd (hown.trans hm) (hnone o hmem),
    fun t htk => by rw [hm]; exact h.token t (ht ▸ htk)⟩⟩

theorem OwnsOne.remove_ok {p : Option PlayerId} {s : Scope} (h : OwnsOne p s) (hl : FieldLive s) :
    ∃ s', s.removeTimeObserver p = .ok s' := by
  unfold Scope.removeTimeObserver
  split
  · rename_i t q ht
    obtain ⟨o, ho, hot⟩ := List.any_eq_true.mp (hl t ht)
    have hot : o.token = t := by simpa using hot
    have hmem : (⟨t, q⟩ : TimeObserver) ∈ s.env.observers := by
      have h2 := (h.own o ho (by rw [hot]; exact h.token t ht)).2
      cases h2
      rw [← hot]; exact ho
    unfold Env.removeTimeObserver
    rw [if_pos hmem]
    exact ⟨_, rfl⟩
  · exact ⟨s, rfl⟩

/-! ## The handlers -/

namespace PsVideoView

theorem addObservers_tidies (s : Scope) : TidiesLive s.env.player s (addObservers s) := by
  unfold addObservers
  split
  · rename_i h; exact .addTimeObserver h
  · exact .refl s

theorem playAction_tidies (s : Scope) : TidiesLive s.env.player s (playAction s) := by
  obtain ⟨_, h⟩ | ⟨_, h⟩ := playAction_commands s
  · rw [h]; exact .commands (.pauseAction _)
  · exact (addObservers_tidies s).trans (.commands h)

theorem playBlock_tidies (s : Scope) : TidiesLive s.env.player s (playBlock s) := by
  have h0 : TidiesLive s.env.player s (initVideoPlayer s) := .kept rfl rfl rfl
  exact h0.trans (playAction_tidies (initVideoPlayer s))

theorem control_tidies {c : Control} {s s' : Scope} (h : control c s = .ok s') :
    TidiesLive s.env.player s s' := by
  cases c with
  | play => cases h; exact playAction_tidies s
  | stop => cases h; exact .commands (.stopAction _)
  | forward => exact .commands (.forwardAction h)
  | backward => exact .commands (.backwardAction h)
  | fullScreen => cases h; exact .refl s
  | slider x => exact .commands (.sliderAction h)
  | settings | videoQuality | controlsView => cases h; exact .kept rfl rfl rfl
  | row settings i => exact .commands (.didSelectRowAt h)
  | playerView => cases h; exact .kept rfl rfl rfl

/-- `viewDismissed` with an empty field, or with one whose player is paused and still current. -/
theorem viewDismissed_tidies {p : PlayerId} (layer : Handle) (quality speed : String) {s : Scope}
    (h : s.self.timeObserver = none ∨
      s.env.isPlaying (some p) = false ∧ s.env.player = some p) (hs : OwnsOne s.env.player s) :
    OwnsOne (some p) (receive p layer quality speed s) ∧
      TidiesLive (some p) (receive p layer quality speed s)
        (viewDismissed p layer quality speed s) := by
  constructor
  · refine ⟨fun o hmem hown => ?_, hs.token⟩
    obtain ⟨h1, h2⟩ := hs.own o hmem hown
    rcases h with h | ⟨_, h⟩
    · rw [h] at h1; cases h1
    · exact ⟨h1, h ▸ h2⟩
  · unfold viewDismissed
    dsimp only
    split
    · rename_i hp
      rcases h with h | ⟨h, _⟩
      · refine TidiesLive.trans ?_ (.commands (.setVideoQuality _ _))
        refine .trans ?_ (.commands (.setVideoSpeed _ _))
        refine .trans ?_ (.silent (.startTimer _))
        refine .trans ?_ (.addTimeObserver h)
        exact .commands ((Commands.call _ _).trans (.controls _ _))
      · exact absurd hp (by rw [show (receive p layer quality speed s).env.isPlaying (some p) =
          s.env.isPlaying (some p) from rfl, h]; simp)
    · exact .commands (.pauseAction _)

end PsVideoView

namespace PsVideoFullViewVC

theorem on_tidies {q : Option PlayerId} {f : Option PlayerId → Scope → Scope} {s : FullScope}
    (h : TidiesLive q s.scope (f s.self.player s.scope)) : TidiesLive q s.scope (s.on f).scope := by
  rw [FullScope.on, FullScope.scope_put h.me]; exact h

theorem tryOn_tidies {q : Option PlayerId} {f : Option PlayerId → Scope → Except Trap Scope}
    {s s' : FullScope} (hf : ∀ r, f s.self.player s.scope = .ok r → TidiesLive q s.scope r)
    (h : s.tryOn f = .ok s') : TidiesLive q s.scope s'.scope := by
  unfold FullScope.tryOn at h
  split at h
  · cases h
  · rename_i r hr
    cases h
    rw [FullScope.scope_put (hf r hr).me]; exact hf r hr

/-- What follows the observer in `playAction` and `viewDidAppear`. -/
theorem start_tidies {q : Option PlayerId} (s : FullScope) :
    TidiesLive q s.scope (setVideoQuality s.self.playerQuality s).scope ∧
      ∀ r, TidiesLive q s.scope (setVideoSpeed r s).scope :=
  ⟨on_tidies (.commands (.setVideoQuality _ _)), fun _ => on_tidies (.commands (.setVideoSpeed _ _))⟩

theorem play_tidies {q : Option PlayerId} (s : FullScope) :
    TidiesLive q s.scope
      ((s.on fun p => (·.call p .play)).on fun _ => (·.controls (·.selectPlay true))).scope :=
  (on_tidies (.commands (.call _ .play))).trans (on_tidies (.commands (q := none) (.controls _ _)))

theorem viewDidAppear_tidies {s : FullScope} (h : s.self.timeObserver = none) :
    TidiesLive s.self.player s.scope (viewDidAppear s).scope := by
  unfold viewDidAppear
  split
  · refine .trans ?_ (start_tidies _).1
    refine .trans ?_ ((start_tidies _).2 _)
    refine .trans ?_ (on_tidies (.silent (.startTimer _)))
    refine .trans (play_tidies s) (on_tidies (.addTimeObserver h))
  · exact .refl _

theorem playAction_tidies (s : FullScope) :
    TidiesLive s.self.player s.scope (playAction s).scope := by
  unfold playAction
  split
  · exact on_tidies (.commands (.pauseAction _))
  · refine .trans ?_ (start_tidies _).1
    refine .trans ?_ ((start_tidies _).2 _)
    refine .trans ?_ (play_tidies _)
    split
    · rename_i h; exact on_tidies (.addTimeObserver h)
    · exact .refl _

theorem removeObservers_tidies {s s' : FullScope} (h : OwnsOne s.self.player s.scope)
    (hr : removeObservers s = .ok s') : Tidies s.self.player s.scope s'.scope := by
  unfold removeObservers FullScope.tryOn at hr
  dsimp only at hr
  split at hr
  · cases hr
  · rename_i r hrem
    cases hr
    -- the notification call before it has no part in this
    have h0 : OwnsOne s.self.player
        (⟨s.me, s.env.removeObserver .method .willResignActive, s.self.toController⟩ : Scope) :=
      h.transfer rfl rfl fun o _ => id
    have ht := h0.remove_tidies hrem
    have hsc := FullScope.scope_put
      (s := ⟨s.me, s.env.removeObserver .method .willResignActive, s.self⟩) ht.me
    rw [hsc]
    exact ⟨ht.me, ht.others, fun _ => ht.nodup h0, fun _ => ht.owns h0⟩

theorem control_tidies {c : Control} {s s' : FullScope} (hc : c ≠ .fullScreen)
    (h : control c s = .ok s') : TidiesLive s.self.player s.scope s'.scope := by
  cases c with
  | fullScreen => exact absurd rfl hc
  | play => cases h; exact playAction_tidies s
  | stop => cases h; exact on_tidies (.commands (.stopAction _))
  | forward => exact tryOn_tidies (fun r hr => .commands (.forwardAction hr)) h
  | backward => exact tryOn_tidies (fun r hr => .commands (.backwardAction hr)) h
  | slider x =>
    exact tryOn_tidies (f := fun p => (·.sliderAction p x))
      (fun r hr => .commands (.sliderAction hr)) h
  | row settings i =>
    exact tryOn_tidies (f := fun p => (·.didSelectRowAt p i))
      (fun r hr => .commands (.didSelectRowAt hr)) h
  | settings | videoQuality | controlsView | playerView => cases h; exact .kept rfl rfl rfl

end PsVideoFullViewVC

/-! ## The world -/

/-- Every object owns at most the observer in its field, on the player it drives. A controller that
has not appeared has none. -/
structure Observed (w : World) : Prop where
  nodup : w.env.observers.Nodup
  view : OwnsOne w.env.player (w.scope 0)
  live : FieldLive (w.scope 0)
  vc : ∀ k, OwnsOne (w.vcs k).player (w.fullScope k).scope
  fresh : ∀ k, w.screen = .presenting k ∨ ¬ w.Made k → (w.vcs k).timeObserver = none
  opened : ∀ k, w.screen.vc = some k → w.Made k

namespace Observed

variable {w w' : World}

theorem put (h : Observed w) {v : ViewId} {s : Scope} (ht : TidiesLive w.env.player (w.scope v) s)
    (hp : (w.put v s).env.player = w.env.player)
    (hv : v = 0 ∨ s.env.observers = w.env.observers) : Observed (w.put v s) := by
  have hn : s.env.observers.Nodup := by
    rcases hv with rfl | ho
    · exact ht.nodup h.view h.nodup
    · rw [ho]; exact h.nodup
  have hvc : ∀ k, OwnsOne (w.vcs k).player ((w.put v s).fullScope k).scope := fun k =>
    (h.vc k).transfer rfl rfl fun o ho hmem =>
      (ht.others o (by rw [ho]; simp [World.scope, World.fullScope, FullScope.scope])).mp hmem
  by_cases hv : v = 0
  · subst hv
    have hs : (w.put 0 s).scope 0 = s := World.scope_put ht.me
    exact ⟨hn, by rw [hs, hp]; exact ht.owns h.view, by rw [hs]; exact ht.live h.live, hvc, h.fresh,
      h.opened⟩
  · have hself : ((w.put v s).scope 0).self = (w.scope 0).self := by
      simp [World.put, World.scope, Function.update_of_ne (Ne.symm hv)]
    have hne : ∀ o : TimeObserver,
        o.token.owner = (w.scope 0).me → o.token.owner ≠ (w.scope v).me := by
      intro o ho hov
      rw [ho] at hov
      cases hov; exact hv rfl
    refine ⟨hn, ?_, ?_, hvc, h.fresh, h.opened⟩
    · rw [hp]
      exact h.view.transfer rfl (by rw [hself]) fun o ho => (ht.others o (hne o ho)).mp
    · exact h.live.transfer h.view.token (by rw [hself]) fun o ho => (ht.others o (hne o ho)).mpr

theorem fullPut (h : Observed w) {k : VcId} {s : FullScope}
    (ht : Tidies (w.vcs k).player (w.fullScope k).scope s.scope)
    (hf : FullFrame (w.fullScope k) s)
    (hk : s.self.timeObserver = (w.vcs k).timeObserver ∨ w.screen ≠ .presenting k ∧ w.Made k) :
    Observed (w.fullPut k s) := by
  have hp : (w.fullPut k s).env.player = w.env.player := hf.frame.player
  have hne : ∀ o : TimeObserver, ∀ a, o.token.owner = a → a ≠ .vc k → o.token.owner ≠ .vc k :=
    fun o a ho ha => by rw [ho]; exact ha
  refine ⟨ht.nodup (h.vc k) h.nodup, ?_, ?_, fun j => ?_, fun j hj => ?_, h.opened⟩
  · rw [hp]
    exact h.view.transfer rfl rfl fun o ho => (ht.others o (hne o _ ho (by simp [World.scope]))).mp
  · exact h.live.transfer h.view.token rfl
      fun o ho => (ht.others o (hne o _ ho (by simp [World.scope]))).mpr
  · by_cases hjk : j = k
    · subst hjk
      have hs : (w.fullPut j s).fullScope j = s := World.fullScope_fullPut ht.me
      have hpl : ((w.fullPut j s).vcs j).player = (w.vcs j).player := by
        simpa [World.fullPut, World.fullScope] using hf.player
      rw [hs, hpl]
      exact ht.owns (h.vc j)
    · have hpl : (w.fullPut k s).vcs j = w.vcs j := by
        simp [World.fullPut, Function.update_of_ne hjk]
      rw [hpl]
      refine (h.vc j).transfer rfl ?_ fun o ho => (ht.others o (hne o _ ho ?_)).mp
      · simp [World.fullScope, FullScope.scope, hpl]
      · simpa [World.fullScope, FullScope.scope] using hjk
  · by_cases hjk : j = k
    · subst hjk
      rcases hk with hk | ⟨h1, h2⟩
      · simpa [World.fullPut, hk] using h.fresh j hj
      · exact absurd hj (by rintro (hj | hj); exacts [h1 hj, hj h2])
    · simpa [World.fullPut, Function.update_of_ne hjk] using h.fresh j hj

theorem screenTo (h : Observed w) {screen : Screen} (hs : ∀ k, screen ≠ .presenting k)
    (hv : ∀ k, screen.vc = some k → w.screen.vc = some k) : Observed { w with screen := screen } :=
  ⟨h.nodup, h.view, h.live, h.vc,
    fun k hk => hk.elim (fun hk => absurd hk (hs k)) fun hk => h.fresh k (.inr hk),
    fun k hk => h.opened k (hv k hk)⟩

theorem background (h : Observed w) (l : List Registration) :
    Observed (l.foldl World.notifyBackground w) := by
  induction l generalizing w with
  | nil => exact h
  | cons r l ih =>
    refine ih ?_
    unfold World.notifyBackground
    split
    · split
      · exact h.fullPut (PsVideoFullViewVC.on_tidies (.commands (.pauseAction _))).toTidies
          (PsVideoFullViewVC.pauseAction_frame _) (.inl rfl)
      · exact h
    · exact h

theorem silent (h : Observed w) (hs : SilentStep w w') : Observed w' := by
  cases hs with
  | refl => exact h
  | put hs => exact h.put (.silent hs) hs.player (.inr hs.observers)
  | fullPut hf hs => exact h.fullPut (TidiesLive.silent hs).toTidies hf (.inl hs.timeObserver)

/-- Events that leave the observers and all fields that name one alone. -/
theorem same (h : Observed w) (ho : w'.env.observers = w.env.observers)
    (hp : w'.env.player = w.env.player) (hv : w'.views = w.views) (hk : w'.vcs = w.vcs)
    (hs : w'.screen = w.screen) (hn : w'.vcCount = w.vcCount) : Observed w' where
  nodup := by rw [ho]; exact h.nodup
  view := by
    rw [hp]
    exact h.view.transfer rfl (by simp [World.scope, hv]) fun o _ hm => by
      rwa [show (w'.scope 0).env.observers = w.env.observers from ho] at hm
  live := h.live.transfer h.view.token (by simp [World.scope, hv]) fun o _ hm => by
    rwa [show (w'.scope 0).env.observers = w.env.observers from ho]
  vc k := by
    rw [hk]
    exact (h.vc k).transfer rfl (by simp [World.fullScope, FullScope.scope, hk]) fun o _ hm => by
      rwa [show (w'.fullScope k).scope.env.observers = w.env.observers from ho] at hm
  fresh k hk' := by rw [hk]; rw [hs, World.Made, hn] at hk'; exact h.fresh k hk'
  opened k hk' := by rw [World.Made, hn]; rw [hs] at hk'; exact h.opened k hk'

/-- The full-screen button: the view gives up its observer, the new controller has none. -/
theorem fullScreen (h : Observed w) {accepts : String → Bool}
    (hw : w.step accepts (.tap 0 .fullScreen) = .ok w') : Observed w' := by
  obtain ⟨s, layer, hrem, hf, _, rfl⟩ := fullScreen_ok hw
  obtain ⟨hnone, hothers, _⟩ := h.view.remove hrem
  refine ⟨(removeTimeObserver_sublist hrem).nodup h.nodup,
    ⟨fun o hmem hown => absurd hown (hnone o hmem), fun t ht => ?_⟩,
    fun t ht => ?_, fun k => ?_, fun k hk => ?_, fun k hk => ?_⟩
  · simp [World.scope, World.put] at ht
  · simp [World.scope, World.put] at ht
  · by_cases hk : k = w.nextVc 0
    · subst hk
      refine ⟨fun o hmem hown => ?_, fun t ht => ?_⟩
      · -- a controller not yet made has registered nothing
        have hmem : o ∈ w.env.observers := (hothers o (by
          rw [hown]; simp [World.scope, World.fullScope, FullScope.scope])).mp hmem
        have := ((h.vc (w.nextVc 0)).own o hmem hown).1
        rw [show (w.fullScope (w.nextVc 0)).scope.self.timeObserver = none from
          h.fresh (w.nextVc 0) (.inr (w.not_made_nextVc 0))] at this
        cases this
      · simp [World.fullScope, FullScope.scope, presentedVC] at ht
    · have hvk : (Function.update w.vcs (w.nextVc 0) (presentedVC (w.scope 0) (w.nextVc 0) 0)) k = w.vcs k :=
        Function.update_of_ne hk _ _
      simp only [hvk]
      refine (h.vc k).transfer rfl ?_ fun o ho => (hothers o ?_).mp
      · simp [World.fullScope, FullScope.scope, hvk]
      · rw [ho]; simp [World.scope, World.fullScope, FullScope.scope]
  · by_cases hkn : k = w.nextVc 0
    · subst hkn; simp [presentedVC]
    · have hmade : ¬ w.Made k := by
        rcases hk with hk | hk
        · cases hk; exact absurd rfl hkn
        · exact fun hm => hk ((World.made_of_count rfl k).mpr (.inl hm))
      simpa [Function.update_of_ne hkn] using h.fresh k (.inr hmade)
  · simp only [Screen.vc, Option.some.injEq] at hk
    subst hk
    exact (World.made_of_count rfl _).mpr (.inr rfl)

/-- A tap in the full-screen controller. -/
theorem fullTap (h : Observed w) {accepts : String → Bool} {c : Control}
    (he : w.enabled (.fullTap c)) (hw : w.step accepts (.fullTap c) = .ok w') : Observed w' := by
  obtain ⟨k, s, hk, hs, _, hr, rfl⟩ := fullTap_ok he hw
  have hff := PsVideoFullViewVC.control_frame hr
  by_cases hc : c = .fullScreen
  · subst hc
    have ht : Tidies (w.vcs k).player (w.fullScope k).scope s.scope :=
      PsVideoFullViewVC.removeObservers_tidies (h.vc k) hr
    refine (h.fullPut ht hff (.inr ⟨hs, h.opened k hk⟩)).screenTo (fun j => by simp) fun j hj => ?_
    exact hk.trans hj
  · have ho := h.fullPut (PsVideoFullViewVC.control_tidies hc hr).toTidies hff
      (.inr ⟨hs, h.opened k hk⟩)
    simpa [hc, World.fullPut] using ho

/-- `viewDidAppear` adds without asking, but a controller that has just been presented has no
observer yet. -/
theorem viewDidAppear (h : Observed w) {k : VcId} (hs : w.screen = .presenting k) :
    Observed { w.fullPut k (PsVideoFullViewVC.viewDidAppear (w.fullScope k)) with
      screen := .presented k } := by
  have hk : w.screen.vc = some k := by rw [hs]; rfl
  have ht := PsVideoFullViewVC.viewDidAppear_tidies (s := w.fullScope k) (h.fresh k (.inl hs))
  have hm : Observed { w with screen := .presented k } :=
    h.screenTo (fun j => by simp) fun j hj => hk.trans hj
  exact hm.fullPut ht.toTidies (PsVideoFullViewVC.viewDidAppear_frame (w.fullScope k))
    (.inr ⟨by simp, h.opened k hk⟩)

/-- `viewDismissed` adds without asking too. -/
theorem viewDismissed (h : Observed w) (hs : Solo w) {accepts : String → Bool}
    (hg : ∀ k, w.screen.vc = some k → (w.views 0).timeObserver = none ∨
      w.env.isPlaying (w.vcs k).player = false ∧ w.env.player = (w.vcs k).player)
    (he : w.enabled .viewDismissed) (hw : w.step accepts .viewDismissed = .ok w') :
    Observed w' := by
  obtain ⟨k, p, layer, hk, hp, _, rfl⟩ := viewDismissed_ok he hw
  have hg := hg k hk
  rw [hp] at hg
  rw [hs.delegate k]
  obtain ⟨h0, ht⟩ := PsVideoView.viewDismissed_tidies (s := w.scope 0) layer
    (w.vcs k).controlsView.videoQualityButton.title
    (w.vcs k).controlsView.settingsButton.title hg h.view
  have hf := PsVideoView.viewDismissed_frame p layer
    (w.vcs k).controlsView.videoQualityButton.title
    (w.vcs k).controlsView.settingsButton.title (w.scope 0)
  -- the world between the hand-over and the rest
  let w1 := { w with screen := .inline }.put 0 (PsVideoView.receive p layer
    (w.vcs k).controlsView.videoQualityButton.title
    (w.vcs k).controlsView.settingsButton.title (w.scope 0))
  have hw1 : w1.scope 0 = _ := World.scope_put rfl
  have hm : Observed w1 :=
    ⟨h.nodup, by rw [hw1]; exact h0,
      by rw [hw1]; exact h.live.transfer h.view.token rfl fun o _ => id,
      fun j => (h.vc j).transfer rfl rfl fun o _ => id,
      fun j hj => h.fresh j (hj.elim (fun hj => by cases hj) .inr), fun j hj => by cases hj⟩
  rw [← hw1] at ht hf
  have ho := hm.put ht hf.player (.inl rfl)
  rwa [World.put_put] at ho

end Observed

/-- The three conditions. A url update finds no observer in the view's field; so does
`viewDismissed`, unless the player it hands back is paused and still current; and `backAction` is
not repeated while the controller's field holds a token that has been removed. -/
def ObserverSafe (w : World) : Event → Bool
  | .property _ (.url _) => (w.views 0).timeObserver = none
  | .viewDismissed => ∀ k ∈ w.screen.vc, (w.views 0).timeObserver = none ∨
      w.env.isPlaying (w.vcs k).player = false ∧ w.env.player = (w.vcs k).player
  | .fullTap .fullScreen => ∀ k ∈ w.screen.vc, FieldLive (w.fullScope k).scope
  | _ => true

theorem Observed.step {accepts : String → Bool} {w w' : World} {e : Event} (hi : Observed w)
    (hs : Solo w) (h1 : e.oneView = true) (he : w.enabled e) (hg : ObserverSafe w e)
    (h : w.step accepts e = .ok w') : Observed w' := by
  cases e with
  | mount | unmount v => cases h1
  | property v p =>
    obtain rfl : v = 0 := hs.mounted v he
    by_cases hp : ∃ u, p = .url u
    · obtain ⟨u, rfl⟩ := hp
      obtain ⟨_, rfl⟩ := url_ok h
      have hn : (w.scope 0).self.timeObserver = none := of_decide_eq_true hg
      -- with an empty field nothing of the view is registered with the old player
      refine ⟨hi.nodup, ⟨fun o hmem hown => ?_, hi.view.token⟩, ?_, ?_, hi.fresh, hi.opened⟩
      · have := (hi.view.own o hmem hown).1
        rw [hn] at this; cases this
      · exact hi.live.transfer hi.view.token rfl fun o _ => id
      · exact fun k => (hi.vc k).transfer rfl rfl fun o _ => id
    · obtain rfl | ⟨s, hc, rfl⟩ := property_ok (fun u hu => hp ⟨u, hu⟩) h
      · exact hi.same rfl rfl rfl rfl rfl rfl
      · exact hi.put (.commands hc) hc.player (.inl rfl)
  | tap v c =>
    obtain rfl : v = 0 := hs.mounted v he.1
    by_cases hc : c = .fullScreen
    · subst hc; exact hi.fullScreen h
    · obtain ⟨s, hr, rfl⟩ := tap_ok hc h
      exact hi.put (PsVideoView.control_tidies hr) (PsVideoView.control_frame hr).player (.inl rfl)
  | fullTap c => exact hi.fullTap he h
  | viewDidAppear =>
    obtain ⟨k, hk, rfl⟩ := viewDidAppear_ok he h
    exact hi.viewDidAppear hk
  | viewDismissed => exact hi.viewDismissed hs (of_decide_eq_true hg) he h
  | delayedBlock v =>
    obtain rfl : v = 0 := hs.delayed v (List.mem_of_mem_head? he)
    cases h
    have hm : Observed { w with delayed := w.delayed.tail } := hi.same rfl rfl rfl rfl rfl rfl
    exact hm.put (PsVideoView.playBlock_tidies (w.scope 0))
      (PsVideoView.playBlock_frame (w.scope 0)).player (.inl rfl)
  | playAnotherVideo url => cases h; exact hi.same rfl rfl rfl rfl rfl rfl
  | mainBlock =>
    obtain ⟨_, _, _, rfl⟩ := mainBlock_ok he h
    exact hi.same rfl rfl rfl rfl rfl rfl
  | background => cases h; exact hi.background _
  | timer t => cases h; exact hi.silent (.timer w t)
  | tick t => exact hi.silent (.tick h)
  | itemProgress p status duration time => cases h; exact hi.same rfl rfl rfl rfl rfl rfl
  | itemEnd p => cases h; exact hi.same rfl rfl rfl rfl rfl rfl
  | playbackError p => cases h; exact hi.same rfl rfl rfl rfl rfl rfl

theorem observed_oneView : Observed .oneView where
  nodup := by simp [World.oneView, World.launch, Env.launch]
  view := ⟨by simp [World.oneView, World.launch, World.scope, Env.launch], by
    simp [World.oneView, World.launch, World.scope, PsVideoView.init]⟩
  live t ht := by simp [World.oneView, World.launch, World.scope, PsVideoView.init] at ht
  vc k := ⟨by simp [World.oneView, World.launch, World.fullScope, FullScope.scope, Env.launch], by
    simp [World.oneView, World.launch, World.fullScope, FullScope.scope, PsVideoFullViewVC.init]⟩
  fresh k _ := rfl
  opened k hk := by simp [World.oneView, World.launch, Screen.vc] at hk

/-- The events of a run of one view that meet the three conditions. -/
def ObserverRun (w : World) (e : Event) : Prop := e.oneView = true ∧ ObserverSafe w e

instance (w : World) (e : Event) : Decidable (ObserverRun w e) :=
  inferInstanceAs (Decidable (_ ∧ _))

/-- `c`, the object `o`, has at most one observer registered, the one in its field. -/
def OneObserver (w : World) (o : Owner) (c : Controller) : Prop :=
  (w.env.observers.filter (·.token.owner = o)).length ≤ 1 ∧
    ∀ t ∈ w.env.observers, t.token.owner = o → c.timeObserver = some t.token

theorem length_le_one {α : Type} {l : List α} (hn : l.Nodup) (h : ∀ a ∈ l, ∀ b ∈ l, a = b) :
    l.length ≤ 1 := by
  match l, hn, h with
  | [], _, _ | [_], _, _ => simp
  | a :: b :: _, hn, h =>
    obtain rfl : a = b := h a (by simp) b (by simp)
    simp at hn

theorem OwnsOne.oneObserver {p : Option PlayerId} {s : Scope} (h : OwnsOne p s)
    (hn : s.env.observers.Nodup) :
    (s.env.observers.filter (·.token.owner = s.me)).length ≤ 1 := by
  -- two observers of one object have the same token and the same player
  refine length_le_one (List.filter_sublist.nodup hn) fun a ha b hb => ?_
  simp only [List.mem_filter, decide_eq_true_eq] at ha hb
  obtain ⟨h1, h2⟩ := h.own a ha.1 ha.2
  obtain ⟨h3, h4⟩ := h.own b hb.1 hb.2
  obtain ⟨ta, pa⟩ := a
  obtain ⟨tb, pb⟩ := b
  rw [h1] at h3; rw [h2] at h4
  cases h3; cases h4; rfl

/-- A wrong `removeTimeObserver` would come from a full-screen button, and there the token is
registered with the player it is removed from. -/
theorem Observed.no_exception {accepts : String → Bool} {w : World} {e : Event} (hi : Observed w)
    (hs : Solo w) (he : w.enabled e) (hg : ObserverSafe w e) :
    w.step accepts e ≠ .error .observerNotRegistered := by
  intro h
  by_cases h1 : ∃ v, e = .tap v .fullScreen
  · obtain ⟨v, rfl⟩ := h1
    obtain rfl : v = 0 := hs.mounted v he.1
    obtain ⟨s, hrem⟩ := hi.view.remove_ok hi.live
    simp only [World.step, World.tap, PsVideoView.fullScreenAction, PsVideoView.removeObservers] at h
    rw [show (w.scope 0).env.player = w.env.player from rfl, hrem] at h
    simp only at h
    split at h
    · rename_i hf
      split at hf
      · cases hf; cases h
      · cases hf
    · cases h
  · by_cases h2 : e = .fullTap .fullScreen
    · subst h2
      simp only [World.step] at h
      split at h
      · rename_i k hk
        have hr := World.fullTap_trap h
        have h0 : OwnsOne (w.vcs k).player (⟨.vc k, w.env.removeObserver .method .willResignActive,
            (w.vcs k).toController⟩ : Scope) := (hi.vc k).transfer rfl rfl fun o _ => id
        obtain ⟨s, hrem⟩ := h0.remove_ok (of_decide_eq_true hg k hk)
        cases hrem.symm.trans (FullScope.tryOn_trap hr)
      · cases h
    · by_cases h3 : ∃ t, e = .tick t
      · obtain ⟨t, rfl⟩ := h3
        rcases World.tick_trap h with h | h <;> cases h
      · have := step_trap_plain (fun v hv => h1 ⟨v, hv⟩) h2 (fun t ht => h3 ⟨t, ht⟩) h
        cases this

/-- **The observers are in order.** In every run of one view that meets the three conditions, no
token is removed from a player that has not registered it, and after every event each of the two
views has at most one observer registered, the one in its field. -/
theorem observers_in_order {accepts : String → Bool} {es : List Event} {w : World}
    (h : Steps ((app accepts).restrict ObserverRun) .oneView es w) :
    OneObserver w (.view 0) (w.views 0) ∧ (∀ k, OneObserver w (.vc k) (w.vcs k).toController) ∧
      ∀ e, w.enabled e → ObserverRun w e → w.step accepts e ≠ .error .observerNotRegistered := by
  have hi : Solo w ∧ Observed w := h.invariant (I := fun w => Solo w ∧ Observed w)
    (fun s e s' hi he hs => ⟨hi.1.step he.2.1 he.1 hs, hi.2.step hi.1 he.2.1 he.1 he.2.2 hs⟩)
    ⟨solo_oneView, observed_oneView⟩
  obtain ⟨hs, ho⟩ := hi
  exact ⟨⟨ho.view.oneObserver ho.nodup, fun o hm hown => (ho.view.own o hm hown).1⟩,
    fun k => ⟨(ho.vc k).oneObserver ho.nodup, fun o hm hown => ((ho.vc k).own o hm hown).1⟩,
    fun e he hg => ho.no_exception hs he hg.2⟩

theorem observers_in_order_session : ∃ w, Steps ((app fun _ => true).restrict ObserverRun) .oneView
    [.property 0 (.url "a"), .property 0 (.play true), .delayedBlock 0, .tap 0 .fullScreen,
      .viewDidAppear, .fullTap .play, .fullTap .fullScreen, .viewDismissed] w ∧
    OneObserver w (.view 0) (w.views 0) := by
  obtain ⟨w, hw, _⟩ := Steps.of_exec_map ((app fun _ => true).restrict ObserverRun) .oneView
    [.property 0 (.url "a"), .property 0 (.play true), .delayedBlock 0, .tap 0 .fullScreen,
      .viewDidAppear, .fullTap .play, .fullTap .fullScreen, .viewDismissed]
    (fun _ => ()) (a := ()) (by decide +kernel)
  exact ⟨w, hw, (observers_in_order hw).1⟩

/-- A url update swaps the player under a live token, and the full-screen button then removes the
token from the new player. -/
theorem observers_not_in_order : ∃ w, Steps (app fun _ => true) .oneView
    [.property 0 (.url "a"), .property 0 (.play true), .delayedBlock 0, .property 0 (.url "b")] w ∧
    w.enabled (.tap 0 .fullScreen) ∧
    w.step (fun _ => true) (.tap 0 .fullScreen) = .error .observerNotRegistered := by
  obtain ⟨w, hw, he, ht⟩ := Steps.of_exec_trap (app fun _ => true) .oneView
    [.property 0 (.url "a"), .property 0 (.play true), .delayedBlock 0, .property 0 (.url "b")]
    (.tap 0 .fullScreen) .observerNotRegistered (by decide +kernel)
  exact ⟨w, hw, he, ht⟩

end PsVideo
