import PsVideo.TimerRuns
import PsVideo.Tokens

/-!
# PsVideo.LostTokens

Time observers that nothing removes any more. `viewDismissed` adds an observer whatever the field
holds; if a delayed block has added one during the session, that one is lost, and goes on calling
back for as long as the app runs.
-/

namespace PsVideo

open Machine

/-! ## The world -/

/-- What holds of the tokens in every run. Nothing is registered before the first player, and a
controller that is being presented has no token yet. -/
structure TokensNumbered (w : World) : Prop extends Present w where
  numbered : ∀ o, (w.tokens o).Numbered o
  presenting : ∀ k, w.screen = .presenting k → (w.vcs k).timeObserver = none
  idle : w.env.player = none → (∀ k, (w.vcs k).player = none) ∧ w.env.observers = []

/-- An object that has not been made has registered nothing. -/
theorem Present.observersOf_eq_nil {w : World} (hi : Present w) {o : Owner} (ho : ¬ w.Holder o) :
    w.env.observersOf o = [] := by
  refine List.filter_eq_nil_iff.mpr fun x hx hown => ho ?_
  rw [← of_decide_eq_true hown]
  exact hi.holder x hx

/-- `viewDismissed` reaches `o` while a token that is registered is in its field, and its player is
playing. -/
def Overwrites (w : World) (o : Owner) (e : Event) : Prop :=
  e = .viewDismissed ∧ ∃ k p, w.screen.vc = some k ∧ (w.vcs k).player = some p ∧
    o = .view (w.vcs k).delegate ∧ w.env.isPlaying (some p) = true ∧
    ∃ t ∈ (w.tokens o).field, ∃ x ∈ (w.tokens o).live, x.token = t

/-- What one event does to the tokens. -/
structure TokenStep (e : Event) (w w' : World) : Prop where
  numbered : ∀ o, (w'.tokens o).Numbered o
  lost : ∀ o, ¬ Overwrites w o e → (w'.tokens o).lost = (w.tokens o).lost
  overwrites : ∀ o, Overwrites w o e → (w'.tokens o).lost = (w.tokens o).live
  idle : w.env.player = none → (∀ k, (w.vcs k).player = none) →
    w'.env.observers = w.env.observers ∨ w'.env.player ≠ none

theorem World.tokens_put {w : World} {v : ViewId} {s : Scope} (hm : s.me = .view v) :
    (w.put v s).tokens (.view v) = s.tokens := by
  simp only [World.tokens, World.scope_put hm]

theorem World.tokens_put_other {w : World} {v : ViewId} {s : Scope} {o : Owner}
    (ho : o ≠ .view v) (hl : s.env.observersOf o = w.env.observersOf o)
    (hc : s.env.observerCount o = w.env.observerCount o) : (w.put v s).tokens o = w.tokens o := by
  cases o with
  | view u =>
    have hu : u ≠ v := fun hu => ho (by rw [hu])
    simp only [World.tokens, Scope.tokens, World.scope, World.put, Function.update_of_ne hu, hl, hc]
  | vc k => simp only [World.tokens, Scope.tokens, World.fullScope, FullScope.scope, World.put, hl, hc]
  | manager => rfl

theorem World.tokens_fullPut {w : World} {k : VcId} {s : FullScope} (hm : s.me = .vc k) :
    (w.fullPut k s).tokens (.vc k) = s.scope.tokens := by
  simp only [World.tokens, World.fullScope_fullPut hm]

theorem World.tokens_fullPut_other {w : World} {k : VcId} {s : FullScope} {o : Owner}
    (ho : o ≠ .vc k) (hl : s.env.observersOf o = w.env.observersOf o)
    (hc : s.env.observerCount o = w.env.observerCount o) :
    (w.fullPut k s).tokens o = w.tokens o := by
  cases o with
  | vc j =>
    have hj : j ≠ k := fun hj => ho (by rw [hj])
    simp only [World.tokens, Scope.tokens, World.fullScope, FullScope.scope, World.fullPut,
      Function.update_of_ne hj, hl, hc]
  | view u => simp only [World.tokens, Scope.tokens, World.scope, World.fullPut, hl, hc]
  | manager => rfl

theorem World.tokens_fullPut_same {w : World} {k : VcId} {s : FullScope}
    (hs : SameTokens (w.fullScope k).scope s.scope) (o : Owner) :
    (w.fullPut k s).tokens o = w.tokens o := by
  by_cases ho : o = .vc k
  · subst ho
    rw [World.tokens_fullPut hs.me]
    exact hs.tokens
  · exact World.tokens_fullPut_other ho (hs.others o).1 (hs.others o).2

namespace TokenStep

variable {accepts : String → Bool} {e : Event} {w w' : World}

/-- Another event than `viewDismissed`. -/
theorem of_keepsLost (he : e ≠ .viewDismissed) (hi : TokensNumbered w)
    (hk : ∀ o, Tokens.KeepsLost o (w.tokens o) (w'.tokens o))
    (hidle : w.env.player = none → (∀ k, (w.vcs k).player = none) →
      w'.env.observers = w.env.observers ∨ w'.env.player ≠ none) : TokenStep e w w' where
  numbered o := (hk o (hi.numbered o)).1
  lost o _ := (hk o (hi.numbered o)).2
  overwrites _ h := absurd h.1 he
  idle := hidle

theorem same (he : e ≠ .viewDismissed) (hi : TokensNumbered w)
    (ht : ∀ o, w'.tokens o = w.tokens o) (ho : w'.env.observers = w.env.observers) :
    TokenStep e w w' :=
  of_keepsLost he hi (fun o => by rw [ht]; exact .refl _) (fun _ _ => .inl ho)

theorem put (he : e ≠ .viewDismissed) (hi : TokensNumbered w) {v : ViewId} {s : Scope}
    (h : LosesNone w.env.player (w.scope v) s) : TokenStep e w (w.put v s) := by
  have hn : (w.scope v).tokens.Numbered (.view v) := hi.numbered (.view v)
  refine of_keepsLost he hi (fun o => ?_) (fun hp _ => .inl (h.idle hp))
  by_cases ho : o = .view v
  · subst ho
    rw [World.tokens_put h.me]
    exact h.own
  · obtain ⟨hl, hc⟩ := h.others hn o ho
    rw [World.tokens_put_other ho hl hc]
    exact .refl _

theorem fullPut (he : e ≠ .viewDismissed) (hi : TokensNumbered w) {k : VcId} {s : FullScope}
    (h : LosesNone (w.vcs k).player (w.fullScope k).scope s.scope) :
    TokenStep e w (w.fullPut k s) := by
  have hn : (w.fullScope k).scope.tokens.Numbered (.vc k) := hi.numbered (.vc k)
  refine of_keepsLost he hi (fun o => ?_) (fun _ hp => .inl (h.idle (hp k)))
  by_cases ho : o = .vc k
  · subst ho
    rw [World.tokens_fullPut h.me]
    exact h.own
  · obtain ⟨hl, hc⟩ := h.others hn o ho
    rw [World.tokens_fullPut_other ho hl hc]
    exact .refl _

/-- What else the event does to the world. -/
theorem congr {w'' : World} (h : TokenStep e w w') (ht : ∀ o, w''.tokens o = w'.tokens o)
    (ho : w''.env.observers = w'.env.observers) (hp : w''.env.player = w'.env.player) :
    TokenStep e w w'' where
  numbered o := by rw [ht]; exact h.numbered o
  lost o hov := by rw [ht]; exact h.lost o hov
  overwrites o hov := by rw [ht]; exact h.overwrites o hov
  idle h1 h2 := by rw [ho, hp]; exact h.idle h1 h2

theorem screenTo (h : TokenStep e w w') (screen : Screen) :
    TokenStep e w { w' with screen := screen } :=
  h.congr (fun o => by cases o <;> rfl) rfl rfl

/-- A new view has nothing registered. -/
theorem mount (hi : TokensNumbered w) (h : w.step accepts .mount = .ok w') :
    TokenStep .mount w w' := by
  cases h
  refine of_keepsLost (by simp) hi (fun o => ?_) (fun _ _ => .inl rfl)
  by_cases ho : o = .view w.nextView
  · subst ho
    have hl : (w.tokens (.view w.nextView)).live = [] :=
      hi.observersOf_eq_nil (o := .view w.nextView) (Nat.lt_irrefl _)
    have hc := Tokens.KeepsLost.clear (o := .view w.nextView) (c := w.tokens (.view w.nextView))
      fun t _ x hx => by rw [hl] at hx; cases hx
    simpa [World.tokens, Scope.tokens, World.scope, PsVideoView.init] using hc
  · cases o with
    | view v =>
      have hv : v ≠ w.nextView := fun hv => ho (by rw [hv])
      simpa [World.tokens, Scope.tokens, World.scope, Function.update_of_ne hv] using
        Tokens.KeepsLost.refl (w.tokens (.view v))
    | vc k | manager => exact .refl _

/-- The full-screen button removes the observer before it clears the field. -/
theorem fullScreen (hi : TokensNumbered w) {v : ViewId}
    (h : w.step accepts (.tap v .fullScreen) = .ok w') : TokenStep (.tap v .fullScreen) w w' := by
  obtain ⟨s, layer, hs, hf, _, rfl⟩ := fullScreen_ok h
  have hr : LosesNone w.env.player (w.scope v) s := .removeTimeObserver hs
  have hn : (w.scope v).tokens.Numbered (.view v) := hi.numbered (.view v)
  have hnew := w.not_made_nextVc v
  refine of_keepsLost (by simp) hi (fun o => ?_) (fun hp _ => .inl (hr.idle hp))
  by_cases ho : o = .view v
  · subst ho
    have hclear := Tokens.KeepsLost.clear (o := .view v)
      (LosesNone.removed hs hn fun hp => (hi.idle hp).2)
    have hm : s.me = .view v := hr.me
    have hown : Tokens.KeepsLost (.view v) (w.scope v).tokens s.tokens := hr.own
    have hkeep := hown.trans hclear
    simpa [World.tokens, Scope.tokens, World.scope, World.put, Env.observersOf, Env.addObserver,
      Env.addSublayer, hm] using hkeep
  · obtain ⟨hl, hc⟩ := hr.others hn o ho
    have hl : s.env.observersOf o = w.env.observersOf o := hl
    have hc : s.env.observerCount o = w.env.observerCount o := hc
    cases o with
    | view u =>
      have hu : u ≠ v := fun hu => ho (by rw [hu])
      have ht : World.tokens w (.view u) = ⟨s.env.observersOf (.view u),
          s.env.observerCount (.view u), (w.views u).timeObserver⟩ := by
        rw [hl, hc]; rfl
      rw [ht]
      simpa [World.tokens, Scope.tokens, World.scope, World.put, Function.update_of_ne hu,
        Env.observersOf, Env.addObserver, Env.addSublayer] using Tokens.KeepsLost.refl _
    | vc k =>
      have ht : World.tokens w (.vc k) = ⟨s.env.observersOf (.vc k),
          s.env.observerCount (.vc k), (w.vcs k).timeObserver⟩ := by
        rw [hl, hc]; rfl
      by_cases hk : k = w.nextVc v
      · subst hk
        have hnil : (w.tokens (.vc (w.nextVc v))).live = [] :=
          hi.observersOf_eq_nil (o := .vc (w.nextVc v)) hnew
        have hclear := Tokens.KeepsLost.clear (o := .vc (w.nextVc v))
          (c := w.tokens (.vc (w.nextVc v))) fun t _ x hx => by rw [hnil] at hx; cases hx
        rw [ht] at hclear ⊢
        simpa [World.tokens, Scope.tokens, World.fullScope, FullScope.scope, World.put,
          presentedVC, Env.observersOf, Env.addObserver, Env.addSublayer] using hclear
      · rw [ht]
        simpa [World.tokens, Scope.tokens, World.fullScope, FullScope.scope, World.put,
          Function.update_of_ne hk, Env.observersOf, Env.addObserver, Env.addSublayer] using
          Tokens.KeepsLost.refl _
    | manager => exact .refl _

/-- The end of a session adds an observer if the player is playing, and whatever is in the field of
the view is lost. -/
theorem viewDismissed (hi : TokensNumbered w) (he : w.enabled .viewDismissed)
    (h : w.step accepts .viewDismissed = .ok w') : TokenStep .viewDismissed w w' := by
  obtain ⟨k, p, layer, hk, hp, _, rfl⟩ := viewDismissed_ok he h
  obtain ⟨ht, ho⟩ := PsVideoView.viewDismissed_tokens p layer
    (w.vcs k).controlsView.videoQualityButton.title
    (w.vcs k).controlsView.settingsButton.title (w.scope (w.vcs k).delegate)
  have hf := PsVideoView.viewDismissed_frame p layer
    (w.vcs k).controlsView.videoQualityButton.title
    (w.vcs k).controlsView.settingsButton.title (w.scope (w.vcs k).delegate)
  generalize PsVideoView.viewDismissed p layer _ _ (w.scope (w.vcs k).delegate) = s at ht ho hf ⊢
  have hm : s.me = .view (w.vcs k).delegate := hf.me
  have hn := hi.numbered (.view (w.vcs k).delegate)
  have hself : World.tokens ({ w with screen := .inline }.put (w.vcs k).delegate s)
      (.view (w.vcs k).delegate) = if w.env.isPlaying (some p) then
        (w.tokens (.view (w.vcs k).delegate)).add (.view (w.vcs k).delegate) p
      else w.tokens (.view (w.vcs k).delegate) := (World.tokens_put hm).trans ht
  have hother : ∀ o, o ≠ .view (w.vcs k).delegate →
      World.tokens ({ w with screen := .inline }.put (w.vcs k).delegate s) o = w.tokens o := by
    intro o hne
    obtain ⟨hl, hc⟩ := ho o hne
    have hput := World.tokens_put_other (w := { w with screen := .inline }) hne hl hc
    exact hput.trans (by cases o <;> rfl)
  refine ⟨fun o => ?_, fun o hov => ?_, fun o hov => ?_, fun _ _ => .inr ?_⟩
  · by_cases hne : o = .view (w.vcs k).delegate
    · subst hne
      rw [hself]
      split
      · exact (hn.add p).1
      · exact hn
    · rw [hother o hne]; exact hi.numbered o
  · by_cases hne : o = .view (w.vcs k).delegate
    · subst hne
      rw [hself]
      split
      · rename_i hplay
        rw [(hn.add p).2]
        refine (Tokens.lost_eq_live fun t hfield x hx heq => ?_).symm
        exact hov ⟨rfl, k, p, hk, hp, rfl, hplay, t, hfield, x, hx, heq⟩
      · rfl
    · rw [hother o hne]
  · obtain ⟨_, j, q, hj, hq, rfl, hplay, _⟩ := hov
    obtain rfl : k = j := Option.some.inj (hk.symm.trans hj)
    obtain rfl : p = q := Option.some.inj (hp.symm.trans hq)
    rw [hself, if_pos hplay, (hn.add p).2]
  · have hp' : s.env.player = some p := hf.player
    exact fun hnone => by cases hp'.symm.trans hnone

theorem property (hi : TokensNumbered w) {v : ViewId} {p : Property}
    (h : w.step accepts (.property v p) = .ok w') : TokenStep (.property v p) w w' := by
  by_cases hp : ∃ u, p = .url u
  · obtain ⟨u, rfl⟩ := hp
    obtain ⟨_, rfl⟩ := url_ok h
    exact same (by simp) hi (fun o => by cases o <;> rfl) rfl
  · obtain rfl | ⟨s, hs, rfl⟩ := property_ok (fun u hu => hp ⟨u, hu⟩) h
    · exact same (by simp) hi (fun o => by cases o <;> rfl) rfl
    · exact put (by simp) hi (.commands hs)

/-- **One event.** -/
theorem step (hi : TokensNumbered w) (he : w.enabled e) (h : w.step accepts e = .ok w') :
    TokenStep e w w' := by
  cases e with
  | mount => exact mount hi h
  | viewDismissed => exact viewDismissed hi he h
  | property v p => exact property hi h
  | tap v c =>
    by_cases hc : c = .fullScreen
    · subst hc; exact fullScreen hi h
    · obtain ⟨s, hs, rfl⟩ := tap_ok hc h
      exact put (by simp) hi (PsVideoView.control_loses hs)
  | fullTap c =>
    obtain ⟨k, s, hk, _, _, hs, rfl⟩ := fullTap_ok he h
    exact screenTo (fullPut (by simp) hi (PsVideoFullViewVC.control_loses hs)) _
  | viewDidAppear =>
    obtain ⟨k, hk, rfl⟩ := viewDidAppear_ok he h
    have hf : (w.fullScope k).self.timeObserver = none := hi.presenting k hk
    have hput : TokenStep .viewDidAppear w _ :=
      fullPut (by simp) hi (PsVideoFullViewVC.viewDidAppear_loses hf)
    exact hput.screenTo _
  | delayedBlock v =>
    cases h
    have hput : TokenStep (.delayedBlock v) w (w.put v (PsVideoView.playBlock (w.scope v))) :=
      put (by simp) hi (PsVideoView.playBlock_loses (w.scope v))
    exact hput.congr (fun o => by cases o <;> rfl) rfl rfl
  | mainBlock =>
    obtain ⟨url, _, _, rfl⟩ := mainBlock_ok he h
    exact same (by simp) hi (fun o => by cases o <;> rfl) rfl
  | background =>
    cases h
    obtain ⟨ht, ho⟩ := background_rule (w := w) (P := fun w' => (∀ o, w'.tokens o = w.tokens o) ∧
      w'.env.observers = w.env.observers) ⟨fun _ => rfl, rfl⟩ fun w' k _ _ _ ⟨ht, ho⟩ => by
        have hs : SameTokens (w'.fullScope k).scope
            (PsVideoFullViewVC.appMovedToBackground (w'.fullScope k)).scope :=
          .commands (.pauseAction (p := (w'.vcs k).player) _)
        exact ⟨fun o => (World.tokens_fullPut_same hs o).trans (ht o), hs.observers.trans ho⟩
    exact same (by simp) hi ht ho
  | timer t =>
    cases h
    obtain ⟨o, n⟩ := t
    cases o with
    | view v =>
      have hs := PsVideoView.timerAction_tokens (w.scope v)
      exact put (by simp) hi (.same hs)
    | vc k =>
      have hs := PsVideoFullViewVC.timerAction_tokens (w.fullScope k)
      exact fullPut (by simp) hi (.same hs)
    | manager => exact same (by simp) hi (fun _ => rfl) rfl
  | tick t =>
    cases tick_ok h with
    | refl => exact same (by simp) hi (fun _ => rfl) rfl
    | view hr =>
      have hs := PsVideoView.timeObserverCallback_tokens hr
      exact put (by simp) hi (.same hs)
    | vc _ hr =>
      have hs := PsVideoFullViewVC.timeObserverCallback_tokens hr
      exact fullPut (by simp) hi (.same hs)
  | _ => cases h; exact same (by simp) hi (fun o => by cases o <;> rfl) rfl

end TokenStep

namespace TokensNumbered

variable {accepts : String → Bool} {e : Event} {w w' : World}

theorem launch : TokensNumbered .launch where
  toPresent := .launch
  numbered o := by
    cases o <;> exact ⟨(fun t ht => by cases ht), (fun x hx => by cases hx), List.nodup_nil⟩
  presenting k hk := by cases hk
  idle _ := ⟨fun _ => rfl, rfl⟩

theorem field_silent {k : VcId} (h : SilentStep w w') :
    (w'.vcs k).timeObserver = (w.vcs k).timeObserver := by
  cases h with
  | refl | put => rfl
  | @fullPut j s _ hs =>
    by_cases hj : k = j
    · subst hj
      have ht : s.self.timeObserver = (w.vcs k).timeObserver := hs.timeObserver
      simpa [World.fullPut] using ht
    · simp [World.fullPut, Function.update_of_ne hj]

/-- A controller that is being presented gets no token before it appears. -/
theorem presenting_field {k : VcId} (hk : w.screen = .presenting k) (hne : e ≠ .viewDidAppear)
    (he : w.enabled e) (h : w.step accepts e = .ok w') :
    (w'.vcs k).timeObserver = (w.vcs k).timeObserver := by
  cases e with
  | tap v c =>
    have hin := he.2.1
    rw [hk] at hin; cases hin
  | fullTap c | viewDismissed => simp only [World.enabled, hk] at he
  | viewDidAppear => exact absurd rfl hne
  | property v p =>
    by_cases hp : ∃ u, p = .url u
    · obtain ⟨u, rfl⟩ := hp
      obtain ⟨_, rfl⟩ := url_ok h
      rfl
    · obtain rfl | ⟨s, _, rfl⟩ := property_ok (fun u hu => hp ⟨u, hu⟩) h <;> rfl
  | mainBlock =>
    obtain ⟨url, _, _, rfl⟩ := mainBlock_ok he h
    rfl
  | background =>
    cases h
    refine background_rule (P := fun w' => (w'.vcs k).timeObserver = (w.vcs k).timeObserver) rfl
      fun w' j _ _ _ hp => ?_
    by_cases hj : k = j
    · subst hj
      have hf : (PsVideoFullViewVC.appMovedToBackground (w'.fullScope k)).self.timeObserver =
        (w.vcs k).timeObserver := hp
      simpa [World.fullPut] using hf
    · simpa [World.fullPut, Function.update_of_ne hj] using hp
  | timer t =>
    cases h
    exact field_silent (.timer w t)
  | tick t => exact field_silent (.tick h)
  | _ => cases h; rfl

/-- Before the first player every controller is made without one. -/
theorem idle_vcs (hp : w'.env.player = none) (he : w.enabled e) (h : w.step accepts e = .ok w')
    (hi : w.env.player = none → ∀ k, (w.vcs k).player = none) :
    w.env.player = none ∧ ∀ k, (w'.vcs k).player = none := by
  cases hq : e.quiet with
  | true =>
    have q := step_quiet hq he h
    have hp' : w.env.player = none := q.player ▸ hp
    exact ⟨hp', fun k => (q.vcPlayer k).trans (hi hp' k)⟩
  | false =>
    cases e with
    | mount | unmount v => cases h; exact ⟨hp, hi hp⟩
    | property v p =>
      cases p with
      | url u => obtain ⟨_, rfl⟩ := url_ok h; cases hp
      | _ => cases hq
    | tap v c =>
      cases c with
      | fullScreen =>
        obtain ⟨s, layer, _, hf, _, rfl⟩ := fullScreen_ok h
        have hp' : w.env.player = none := hf.player.symm.trans hp
        refine ⟨hp', fun k => ?_⟩
        by_cases hk : k = w.nextVc v
        · subst hk; simpa [presentedVC, World.scope] using hp'
        · simpa [Function.update_of_ne hk] using hi hp' k
      | _ => cases hq
    | viewDismissed =>
      obtain ⟨k, p, layer, _, _, _, rfl⟩ := viewDismissed_ok he h
      have hf := PsVideoView.viewDismissed_frame p layer
        (w.vcs k).controlsView.videoQualityButton.title
        (w.vcs k).controlsView.settingsButton.title (w.scope (w.vcs k).delegate)
      cases hf.player.symm.trans hp
    | delayedBlock v =>
      cases h
      have hp' : w.env.player = none := (PsVideoView.playBlock_frame (w.scope v)).player.symm.trans hp
      exact ⟨hp', hi hp'⟩
    | _ => cases hq

theorem step (hi : TokensNumbered w) (he : w.enabled e) (h : w.step accepts e = .ok w') :
    TokensNumbered w' := by
  have ht := TokenStep.step hi he h
  refine ⟨hi.toPresent.step he h, ht.numbered, fun k hk => ?_, fun hp => ?_⟩
  · obtain ⟨hk', hne⟩ | ⟨v, rfl, rfl⟩ := step_presenting he h hk
    · exact (presenting_field hk' hne he h).trans (hi.presenting k hk')
    · obtain ⟨s, layer, _, _, _, rfl⟩ := fullScreen_ok h
      simp [presentedVC]
  · obtain ⟨hp', hv⟩ := idle_vcs hp he h fun hp => (hi.idle hp).1
    obtain ⟨hold, hnil⟩ := hi.idle hp'
    exact ⟨hv, ((ht.idle hp' hold).resolve_right (not_not.mpr hp)).trans hnil⟩

theorem reached {es : List Event} (h : Steps (app accepts) .launch es w) : TokensNumbered w :=
  h.invariant (fun _ _ _ hi he hs => hi.step he hs) .launch

/-- No event finds a lost token again. -/
theorem lost_sublist (hi : TokensNumbered w) (he : w.enabled e) (h : w.step accepts e = .ok w')
    (o : Owner) : (w.tokens o).lost.Sublist (w'.tokens o).lost := by
  have ht := TokenStep.step hi he h
  by_cases hov : Overwrites w o e
  · rw [ht.overwrites o hov]; exact List.filter_sublist
  · rw [ht.lost o hov]

/-- A lost observer is still registered. -/
theorem enabled_lost {o : Owner} {x : TimeObserver} (hx : x ∈ (w.tokens o).lost) :
    w.enabled (.tick x.token) := by
  have hlive : x ∈ (w.tokens o).live := List.mem_of_mem_filter hx
  have hmem : x ∈ w.env.observers := by
    cases o with
    | view v | vc k => exact List.mem_of_mem_filter hlive
    | manager => cases hlive
  exact List.any_eq_true.mpr ⟨x, hmem, by simp⟩

end TokensNumbered

/-- **What is lost stays lost.** However a run goes on, the observers that an object has lost stay
registered, in their order, and go on ticking, those of a view in that view, mounted or not. -/
theorem lost_for_good {accepts : String → Bool} {pre es : List Event} {w₁ w : World}
    (h₁ : Steps (app accepts) .launch pre w₁) (h : Steps (app accepts) w₁ es w) :
    (∀ o, (w₁.tokens o).lost.Sublist (w.tokens o).lost) ∧
    (∀ o, ∀ x ∈ (w₁.tokens o).lost, w.enabled (.tick x.token)) ∧
    ∀ v, (w₁.tokens (.view v)).lost ≠ [] → w.viewAlive v = true := by
  obtain ⟨hi, hsub⟩ := h.invariant
    (I := fun w => TokensNumbered w ∧ ∀ o, (w₁.tokens o).lost.Sublist (w.tokens o).lost)
    (fun _ _ _ hi he hs => ⟨hi.1.step he hs, fun o => (hi.2 o).trans (hi.1.lost_sublist he hs o)⟩)
    ⟨.reached h₁, fun _ => .refl _⟩
  refine ⟨hsub, fun o x hx => TokensNumbered.enabled_lost ((hsub o).subset hx), fun v hv => ?_⟩
  obtain ⟨x, hx⟩ := List.exists_mem_of_ne_nil _ hv
  have hlive : x ∈ w.env.observersOf (.view v) := List.mem_of_mem_filter ((hsub _).subset hx)
  obtain ⟨hmem, hown⟩ := List.mem_filter.mp hlive
  have hv : w.Holder x.token.owner := hi.holder x hmem
  rw [of_decide_eq_true hown] at hv
  exact hi.toRetained.viewAlive hv

/-- **When an observer is lost.** In every state reached, an event loses an observer exactly if it is
the end of a session that finds a registered token in the field of the view and the player playing;
then all that the view has registered until then is lost. -/
theorem loses_iff {accepts : String → Bool} {es : List Event} {w w' : World} {e : Event}
    (h : Steps (app accepts) .launch es w) (he : w.enabled e) (hs : w.step accepts e = .ok w')
    (o : Owner) : ((w'.tokens o).lost ≠ (w.tokens o).lost ↔ Overwrites w o e) ∧
      (Overwrites w o e → (w'.tokens o).lost = (w.tokens o).live) := by
  have ht := TokenStep.step (.reached h) he hs
  refine ⟨⟨fun hne => ?_, fun hov heq => ?_⟩, ht.overwrites o⟩
  · by_contra hov
    exact hne (ht.lost o hov)
  · -- the observer of the field is among the lost ones only afterwards
    have hlost := ht.overwrites o hov
    obtain ⟨_, _, _, _, _, _, _, t, hfield, x, hx, rfl⟩ := hov
    rw [← hlost, heq] at hx
    have hnot := of_decide_eq_true (List.mem_filter.mp hx).2
    exact hnot (Option.mem_def.mp hfield).symm

/-- A second block runs during a session and adds an observer; at the end of the session it is lost,
and it ticks on after the view has been unmounted. -/
theorem lost_for_good_unmounted : ∃ w₁ w, Steps (app fun _ => true) .launch
    [.mount, .property 0 (.url "a"), .property 0 (.play true), .property 0 (.play true),
      .delayedBlock 0, .tap 0 .play, .tap 0 .fullScreen, .viewDidAppear, .delayedBlock 0,
      .fullTap .fullScreen, .viewDismissed] w₁ ∧
    Steps (app fun _ => true) w₁ [.timer ⟨.view 0, 0⟩, .unmount 0, .mount, .property 1 (.url "b")] w ∧
    w.mounted 0 = false ∧ w.enabled (.tick ⟨.view 0, 1⟩) ∧ w.viewAlive 0 = true := by
  obtain ⟨w₁, hw₁, hobs⟩ := Steps.of_exec_map (app fun _ => true) .launch
    [.mount, .property 0 (.url "a"), .property 0 (.play true), .property 0 (.play true),
      .delayedBlock 0, .tap 0 .play, .tap 0 .fullScreen, .viewDidAppear, .delayedBlock 0,
      .fullTap .fullScreen, .viewDismissed]
    (fun w₁ => ((w₁.tokens (.view 0)).lost, ((app fun _ => true).exec w₁
      [.timer ⟨.view 0, 0⟩, .unmount 0, .mount, .property 1 (.url "b")]).map
        fun w => w.mounted 0))
    (a := ([⟨⟨.view 0, 1⟩, ⟨0, 0⟩⟩], some false)) (by decide +kernel)
  obtain ⟨hl, hr⟩ := Prod.mk.inj hobs
  obtain ⟨w, hw, hm⟩ := Option.map_eq_some_iff.mp hr
  obtain ⟨_, htick, halive⟩ := lost_for_good hw₁ (.of_exec hw)
  refine ⟨w₁, w, hw₁, .of_exec hw, hm, htick (.view 0) ⟨⟨.view 0, 1⟩, ⟨0, 0⟩⟩ ?_, halive 0 ?_⟩
  · rw [hl]; simp
  · rw [hl]; simp

/-- The same run up to the end of the session, which finds the token of the block in the field. -/
theorem loses_iff_block : ∃ w w', Steps (app fun _ => true) .launch
    [.mount, .property 0 (.url "a"), .property 0 (.play true), .property 0 (.play true),
      .delayedBlock 0, .tap 0 .play, .tap 0 .fullScreen, .viewDidAppear, .delayedBlock 0,
      .fullTap .fullScreen] w ∧ w.step (fun _ => true) .viewDismissed = .ok w' ∧
    Overwrites w (.view 0) .viewDismissed := by
  obtain ⟨w, hw, hobs⟩ := Steps.of_exec_map (app fun _ => true) .launch
    [.mount, .property 0 (.url "a"), .property 0 (.play true), .property 0 (.play true),
      .delayedBlock 0, .tap 0 .play, .tap 0 .fullScreen, .viewDidAppear, .delayedBlock 0,
      .fullTap .fullScreen]
    (fun w => (decide (w.enabled .viewDismissed), (w.tokens (.view 0)).lost,
      ((app fun _ => true).exec w [.viewDismissed]).map fun w' => (w'.tokens (.view 0)).lost))
    (a := (true, [], some [⟨⟨.view 0, 1⟩, ⟨0, 0⟩⟩])) (by decide +kernel)
  simp only [Prod.mk.injEq] at hobs
  obtain ⟨he, hl, hr⟩ := hobs
  obtain ⟨w', hw', hl'⟩ := Option.map_eq_some_iff.mp hr
  have hs : w.step (fun _ => true) .viewDismissed = .ok w' := (Steps.of_exec hw').single_inv.2
  refine ⟨w, w', hw, hs, ?_⟩
  refine (loses_iff hw (of_decide_eq_true he) hs (.view 0)).1.mp fun heq => ?_
  rw [hl, hl'] at heq
  cases heq

end PsVideo
