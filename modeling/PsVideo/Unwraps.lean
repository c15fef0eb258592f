import PsVideo.Retention
import PsVideo.Traps

/-!
# PsVideo.Unwraps

The forced unwraps. `backwardAction` unwraps the current time of a player that may not be there,
`fullScreenAction` a layer that only a delayed block makes, and the completion of `backAction` the
player that `fullScreenAction` handed over. The layer of a controller is always there, so
`viewDidLayoutSubviews` and the completion never unwrap a nil layer.
-/

namespace PsVideo

open Machine

/-- `playerLayer!.frame = view.bounds`; the frame is layout. -/
def PsVideoFullViewVC.viewDidLayoutSubviews (s : FullScope) : Except Trap FullScope :=
  match s.self.playerLayer with
  | none => .error .unwrapNil
  | some _ => .ok s

def Event.accepted (accepts : String → Bool) : Event → Bool
  | .property _ (.url u) => accepts u
  | _ => true

/-- A url update brings a string that `URL(string:)` accepts. -/
def UrlAccepted (accepts : String → Bool) (_w : World) (e : Event) : Prop :=
  e.accepted accepts = true

instance (accepts : String → Bool) (w : World) (e : Event) : Decidable (UrlAccepted accepts w e) :=
  inferInstanceAs (Decidable (_ = _))

/-- The token in the field is one that the player has registered. -/
def Scope.Removable (p : Option PlayerId) (s : Scope) : Prop :=
  ∀ token ∈ s.self.timeObserver, ∀ q ∈ p, ⟨token, q⟩ ∈ s.env.observers

/-- Handling `e` unwraps no nil, and nor does the layout of any controller. -/
def NoNil (accepts : String → Bool) (w : World) (e : Event) : Prop :=
  w.step accepts e ≠ .error .unwrapNil ∧
    ∀ k, w.Made k → PsVideoFullViewVC.viewDidLayoutSubviews (w.fullScope k) ≠ .error .unwrapNil

/-- What is unwrapped is there. The full-screen button comes to its layer only if the removal of the
observer has not raised an exception before. -/
def NilSafe (w : World) : Event → Prop
  | .tap _ .backward => w.env.player ≠ none
  | .tap v .fullScreen => (w.scope v).Removable w.env.player → (w.views v).playerLayer ≠ none
  | .fullTap .backward => ∀ k, w.screen.vc = some k → (w.vcs k).player ≠ none
  | .viewDismissed => ∀ k, w.screen.vc = some k → (w.vcs k).player ≠ none
  | _ => True

/-! ## The handlers -/

namespace Scope

variable {p : Option PlayerId} {s : Scope}

theorem backwardAction_unwraps : s.backwardAction p = .error .unwrapNil ↔ p = none := by
  constructor
  · intro h
    obtain ⟨hp, _⟩ | ht := backwardAction_trap h
    · exact hp
    · cases ht
  · rintro rfl; rfl

theorem removeTimeObserver_trap {t : Trap} (h : s.removeTimeObserver p = .error t) :
    t = .observerNotRegistered := by
  unfold removeTimeObserver Env.removeTimeObserver at h
  split at h
  · split at h
    · rename_i t' ht
      split at ht <;> cases ht
      cases h; rfl
    · cases h
  · cases h

theorem removable_iff : (∃ s', s.removeTimeObserver p = .ok s') ↔ s.Removable p := by
  unfold removeTimeObserver Env.removeTimeObserver Removable
  cases s.self.timeObserver with
  | none => simp
  | some token =>
    cases p with
    | none => simp
    | some q => by_cases hm : ⟨token, q⟩ ∈ s.env.observers <;> simp [hm]

end Scope

/-- Only going back unwraps what may be nil. -/
theorem PsVideoView.control_unwraps {c : Control} {s : Scope} (hc : c ≠ .backward) :
    PsVideoView.control c s ≠ .error .unwrapNil := by
  intro h
  cases c with
  | backward => exact hc rfl
  | forward => cases Scope.forwardAction_trap h
  | slider x => cases Scope.sliderAction_trap h
  | row settings i => cases Scope.didSelectRowAt_trap h
  | _ => cases h

theorem PsVideoFullViewVC.control_unwraps {c : Control} {s : FullScope} (hc : c ≠ .backward) :
    PsVideoFullViewVC.control c s ≠ .error .unwrapNil := by
  intro h
  cases c with
  | backward => exact hc rfl
  | forward => cases Scope.forwardAction_trap (FullScope.tryOn_trap h)
  | fullScreen => cases Scope.removeTimeObserver_trap (FullScope.tryOn_trap h)
  | slider x =>
    cases Scope.sliderAction_trap (FullScope.tryOn_trap (f := fun p => (·.sliderAction p x)) h)
  | row settings i =>
    cases Scope.didSelectRowAt_trap (FullScope.tryOn_trap (f := fun p => (·.didSelectRowAt p i)) h)
  | _ => cases h

theorem PsVideoFullViewVC.backward_unwraps {s : FullScope} :
    PsVideoFullViewVC.control .backward s = .error .unwrapNil ↔ s.self.player = none := by
  constructor
  · intro h
    exact Scope.backwardAction_unwraps.mp (FullScope.tryOn_trap h)
  · intro h
    simp only [control, FullScope.tryOn, Scope.backwardAction_unwraps.mpr h]

/-! ## The world -/

section World

variable {accepts : String → Bool} {w w' : World} {e : Event}

theorem tryPut_error {v : ViewId} {r : Except Trap Scope} {t : Trap} :
    w.tryPut v r = .error t ↔ r = .error t :=
  ⟨World.tryPut_trap, fun h => by rw [h]; rfl⟩

theorem fullTap_error {k : VcId} {c : Control} {t : Trap} : w.fullTap k c = .error t ↔
    PsVideoFullViewVC.control c (w.fullScope k) = .error t :=
  ⟨World.fullTap_trap, fun h => by simp only [World.fullTap, World.tryFullPut, h]⟩

theorem fullScreen_unwraps {v : ViewId} : w.step accepts (.tap v .fullScreen) = .error .unwrapNil ↔
    (w.scope v).Removable w.env.player ∧ (w.views v).playerLayer = none := by
  rw [← Scope.removable_iff]
  simp only [World.step, World.tap, PsVideoView.fullScreenAction, PsVideoView.removeObservers]
  rw [show (w.scope v).env.player = w.env.player from rfl]
  cases hs : (w.scope v).removeTimeObserver w.env.player with
  | error t =>
    have ht := Scope.removeTimeObserver_trap hs
    subst ht
    simp
  | ok s =>
    have hl : s.self.playerLayer = (w.views v).playerLayer := (Frame.removeTimeObserver hs).playerLayer
    cases hn : (w.views v).playerLayer with
    | none => simp [hl, hn]
    | some layer => simp [hl, hn]

/-- Every controller has its layer. -/
structure Housed (w : World) : Prop extends Present w where
  layer : ∀ k, w.Made k → (w.vcs k).playerLayer ≠ none

theorem housed_launch : Housed .launch :=
  ⟨.launch, fun _ hk => absurd hk (Nat.not_lt_zero _)⟩

theorem Housed.step (hi : Housed w) (he : w.enabled e) (h : w.step accepts e = .ok w') :
    Housed w' := by
  refine ⟨hi.toPresent.step he h, fun k hk => ?_⟩
  cases hq : e.quiet with
  | true =>
    have q := step_quiet hq he h
    rw [q.vcLayer]
    rw [World.Made, q.vcCount] at hk
    exact hi.layer k hk
  | false =>
    cases e with
    | mount | unmount v => cases h; exact hi.layer k hk
    | property v p =>
      cases p with
      | url u => obtain ⟨_, rfl⟩ := url_ok h; exact hi.layer k hk
      | _ => cases hq
    | tap v c =>
      cases c with
      | fullScreen =>
        obtain ⟨s, layer, _, _, hl, rfl⟩ := fullScreen_ok h
        by_cases hn : k = w.nextVc v
        · subst hn
          simp only [Function.update_self]
          exact fun hnone => by cases hl.symm.trans hnone
        · have hk := ((World.made_of_count (w := w) (v := v) rfl k).mp hk).resolve_right hn
          simp only [Function.update_of_ne hn]
          exact hi.layer k hk
      | _ => cases hq
    | viewDismissed =>
      obtain ⟨j, p, layer, _, _, _, rfl⟩ := viewDismissed_ok he h
      exact hi.layer k hk
    | delayedBlock v => cases h; exact hi.layer k hk
    | _ => cases hq

/-- With its layer there, what `viewDismissed` unwraps is the player. -/
theorem Housed.viewDismissed_unwraps (hi : Housed w) {k : VcId} (hk : w.screen.vc = some k) :
    w.step accepts .viewDismissed = .error .unwrapNil ↔ (w.vcs k).player = none := by
  simp only [World.step, hk, World.viewDismissed]
  cases hl : (w.vcs k).playerLayer with
  | none => exact absurd hl (hi.layer k (hi.opened k hk))
  | some layer => cases (w.vcs k).player <;> simp

theorem Housed.layout (hi : Housed w) {k : VcId} (hk : w.Made k) :
    PsVideoFullViewVC.viewDidLayoutSubviews (w.fullScope k) ≠ .error .unwrapNil := by
  unfold PsVideoFullViewVC.viewDidLayoutSubviews
  split
  · rename_i hl; exact absurd hl (hi.layer k hk)
  · simp

/-- The other events unwrap nothing that may be nil. -/
theorem step_unwraps (hu : UrlAccepted accepts w e) (h1 : ∀ v, e ≠ .tap v .backward)
    (h2 : ∀ v, e ≠ .tap v .fullScreen) (h3 : e ≠ .fullTap .backward) (h4 : e ≠ .viewDismissed) :
    w.step accepts e ≠ .error .unwrapNil := by
  intro h
  cases e with
  | property v p =>
    cases p with
    | url u =>
      have hu : accepts u = true := hu
      simp only [World.step, World.setProperty, hu, if_true] at h
      cases h
    | paused b => cases b <;> cases h
    | play b => cases b <;> cases h
    | _ => cases h
  | tap v c =>
    have hf : c ≠ .fullScreen := fun hc => h2 v (by rw [hc])
    have hb : c ≠ .backward := fun hc => h1 v (by rw [hc])
    simp only [World.step, tap_eq hf] at h
    exact PsVideoView.control_unwraps hb (tryPut_error.mp h)
  | fullTap c =>
    have hb : c ≠ .backward := fun hc => h3 (by rw [hc])
    simp only [World.step] at h
    split at h
    · exact PsVideoFullViewVC.control_unwraps hb (fullTap_error.mp h)
    · cases h
  | viewDismissed => exact h4 rfl
  | tick t =>
    rcases World.tick_trap h with h | h <;> cases h
  | viewDidAppear | mainBlock => simp only [World.step] at h; split at h <;> cases h
  | _ => cases h

theorem Housed.noNil_iff (hi : Housed w) (hu : UrlAccepted accepts w e) :
    NoNil accepts w e ↔ NilSafe w e := by
  have hl : NoNil accepts w e ↔ w.step accepts e ≠ .error .unwrapNil :=
    ⟨And.left, fun h => ⟨h, fun k hk => hi.layout hk⟩⟩
  rw [hl]
  by_cases h1 : ∃ v, e = .tap v .backward
  · obtain ⟨v, rfl⟩ := h1
    exact not_congr (tryPut_error.trans Scope.backwardAction_unwraps)
  by_cases h2 : ∃ v, e = .tap v .fullScreen
  · obtain ⟨v, rfl⟩ := h2
    exact (not_congr fullScreen_unwraps).trans not_and
  by_cases h3 : e = .fullTap .backward
  · subst h3
    cases hk : w.screen.vc with
    | none => simp [World.step, hk, NilSafe]
    | some k =>
      simp only [World.step, hk, NilSafe, Option.some.injEq, forall_eq']
      exact not_congr (fullTap_error.trans PsVideoFullViewVC.backward_unwraps)
  by_cases h4 : e = .viewDismissed
  · subst h4
    cases hk : w.screen.vc with
    | none => simp [World.step, hk, NilSafe]
    | some k =>
      simp only [NilSafe, hk, Option.some.injEq, forall_eq']
      exact not_congr (hi.viewDismissed_unwraps hk)
  have hs := step_unwraps hu (fun v hv => h1 ⟨v, hv⟩) (fun v hv => h2 ⟨v, hv⟩) h3 h4
  refine iff_of_true hs ?_
  cases e with
  | tap v c =>
    cases c with
    | backward => exact absurd ⟨v, rfl⟩ h1
    | fullScreen => exact absurd ⟨v, rfl⟩ h2
    | _ => trivial
  | fullTap c =>
    cases c with
    | backward => exact absurd rfl h3
    | _ => trivial
  | viewDismissed => exact absurd rfl h4
  | _ => trivial

end World

/-- **No nil is unwrapped exactly if**, in every run whose urls come from accepted strings, what is
unwrapped is there: the player when someone goes back or a session ends, the layer when the
full-screen button is tapped. -/
theorem no_nil_iff {accepts : String → Bool} {es : List Event} :
    Along ((app accepts).restrict (UrlAccepted accepts)) (NoNil accepts) .launch es ↔
      Along ((app accepts).restrict (UrlAccepted accepts)) NilSafe .launch es := by
  refine Along.congr_of_invariant ?_ ?_ housed_launch
  · intro w e w' hi he hs
    exact hi.step he.1 hs
  · intro w e hi he
    exact hi.noNil_iff he.2

/-- A tap on backward before the first url update, one on the full-screen button before the first
delayed block, and the end of a session that began before the first url update. -/
theorem nil_unwrapped :
    (∃ w, Steps ((app fun _ => true).restrict (UrlAccepted fun _ => true)) .launch [.mount] w ∧
      w.enabled (.tap 0 .backward) ∧
      w.step (fun _ => true) (.tap 0 .backward) = .error .unwrapNil) ∧
    (∃ w, Steps ((app fun _ => true).restrict (UrlAccepted fun _ => true)) .launch
        [.mount, .property 0 (.url "a"), .property 0 (.play true)] w ∧
      w.enabled (.tap 0 .fullScreen) ∧
      w.step (fun _ => true) (.tap 0 .fullScreen) = .error .unwrapNil) ∧
    ∃ w, Steps ((app fun _ => true).restrict (UrlAccepted fun _ => true)) .launch
        [.mount, .property 0 (.play true), .delayedBlock 0, .tap 0 .fullScreen, .viewDidAppear,
          .fullTap .fullScreen] w ∧
      w.enabled .viewDismissed ∧ w.step (fun _ => true) .viewDismissed = .error .unwrapNil := by
  refine ⟨?_, ?_, ?_⟩
  · obtain ⟨w, hw, he, ht⟩ := Steps.of_exec_trap
      ((app fun _ => true).restrict (UrlAccepted fun _ => true)) .launch [.mount]
      (.tap 0 .backward) .unwrapNil (by decide +kernel)
    exact ⟨w, hw, he.1, ht⟩
  · obtain ⟨w, hw, he, ht⟩ := Steps.of_exec_trap
      ((app fun _ => true).restrict (UrlAccepted fun _ => true)) .launch
      [.mount, .property 0 (.url "a"), .property 0 (.play true)] (.tap 0 .fullScreen) .unwrapNil
      (by decide +kernel)
    exact ⟨w, hw, he.1, ht⟩
  · obtain ⟨w, hw, he, ht⟩ := Steps.of_exec_trap
      ((app fun _ => true).restrict (UrlAccepted fun _ => true)) .launch
      [.mount, .property 0 (.play true), .delayedBlock 0, .tap 0 .fullScreen, .viewDidAppear,
        .fullTap .fullScreen] .viewDismissed .unwrapNil (by decide +kernel)
    exact ⟨w, hw, he.1, ht⟩

end PsVideo
