import PsVideo.AppJs

/-!
# PsVideo.SessionEnd

How a full-screen session can end. The exit button traps if the token of the controller is not
registered, and the completion of `dismiss(animated:)` if the controller has no player. The first
does not happen before the button has been tapped once, so a session that has a player can always be
ended; and a session that was opened without one never is.
-/

namespace PsVideo

open Machine

/-- The token of a controller on the screen can be removed until the exit button is tapped. -/
def Upright (w : World) : Prop :=
  ∀ k, w.screen.vc = some k → w.screen ≠ .dismissing k →
    (w.fullScope k).scope.Removable (w.vcs k).player

section Steps

variable {accepts : String → Bool} {e : Event} {w w' : World}

theorem shown_before {k : VcId} (h1 : ∀ v, e ≠ .tap v .fullScreen) (he : w.enabled e)
    (h : w.step accepts e = .ok w') (hk : w'.screen.vc = some k) (hd : w'.screen ≠ .dismissing k) :
    w.screen.vc = some k ∧ w.screen ≠ .dismissing k := by
  by_cases hn : e.native = true
  · by_cases h3 : e = .viewDismissed
    · subst h3
      obtain ⟨j, p, layer, _, _, _, rfl⟩ := viewDismissed_ok he h
      cases hk
    · refine ⟨?_, fun hs => hd (step_dismissing hn h3 hs he h)⟩
      cases e with
      | tap v c =>
        obtain ⟨s, _, rfl⟩ := tap_ok (fun hc => h1 v (by rw [hc])) h
        exact hk
      | delayedBlock v => cases h; exact hk
      | viewDismissed => exact absurd rfl h3
      | mount | unmount | property => cases hn
      | _ => exact (step_quiet rfl he h).screen.symm.trans hk
  · -- React Native's events leave the screen alone
    have hs : w'.screen = w.screen := by
      cases e with
      | mount | unmount v => cases h; rfl
      | property v p =>
        cases p with
        | url u => obtain ⟨_, rfl⟩ := url_ok h; rfl
        | _ => obtain rfl | ⟨s, _, rfl⟩ := property_ok (by simp) h <;> rfl
      | _ => exact absurd rfl hn
    rw [← hs]
    exact ⟨hk, hd⟩

theorem Upright.step (hi : Upright w) (he : w.enabled e) (h : w.step accepts e = .ok w') :
    Upright w' := by
  intro k hk hd
  by_cases h1 : ∃ v, e = .tap v .fullScreen
  · -- the new controller has no token
    obtain ⟨v, rfl⟩ := h1
    obtain ⟨s, layer, _, _, _, rfl⟩ := fullScreen_ok h
    obtain rfl : w.nextVc v = k := Option.some.inj hk
    exact .of_none (by simp [World.fullScope, FullScope.scope, presentedVC])
  obtain ⟨hk0, hd0⟩ := shown_before (fun v hv => h1 ⟨v, hv⟩) he h hk hd
  have hr := hi k hk0 hd0
  by_cases hn : e.native = true
  · have h2 : e ≠ .fullTap .fullScreen := by
      rintro rfl
      obtain ⟨j, s, hj, _, _, _, rfl⟩ := fullTap_ok he h
      obtain rfl := Option.some.inj (hj.symm.trans hk0)
      exact hd rfl
    have h3 : e ≠ .viewDismissed := by
      rintro rfl
      obtain ⟨j, p, layer, _, _, _, rfl⟩ := viewDismissed_ok he h
      cases hk
    have hg := TokensGrow.step hn (fun v hv => h1 ⟨v, hv⟩) h2 h3 he h
    rw [hg.vcPlayer]
    exact (hg.vc k).removable hr
  · cases e with
    | mount | unmount v => cases h; exact hr
    | property v p =>
      cases p with
      | url u => obtain ⟨_, rfl⟩ := url_ok h; exact hr
      | _ =>
        obtain rfl | ⟨s, hc, rfl⟩ := property_ok (by simp) h
        · exact hr
        · intro t ht q hq
          have ho : s.env.observers = w.env.observers := hc.observers
          exact ho ▸ hr t ht q hq
    | _ => exact absurd rfl hn

/-- A session whose controller has no player goes on. -/
theorem step_orphan {k : VcId} (hi : Opened w) (hk : w.screen.vc = some k)
    (hp : (w.vcs k).player = none) (he : w.enabled e) (h : w.step accepts e = .ok w') :
    w'.screen.vc = some k ∧ (w'.vcs k).player = none := by
  refine ⟨?_, (step_vcPlayer (hi k hk) he h).trans hp⟩
  cases hq : e.quiet with
  | true => exact (step_quiet hq he h).screen.trans hk
  | false =>
    cases e with
    | mount | unmount v => cases h; exact hk
    | property v p =>
      cases p with
      | url u => obtain ⟨_, rfl⟩ := url_ok h; exact hk
      | _ => cases hq
    | tap v c =>
      have hin := he.2.1
      rw [hin] at hk; cases hk
    | viewDismissed =>
      obtain ⟨j, p, layer, hj, hjp, _, _⟩ := viewDismissed_ok he h
      obtain rfl := Option.some.inj (hk.symm.trans hj)
      cases hp.symm.trans hjp
    | delayedBlock v => cases h; exact hk
    | _ => cases hq

/-! ## The way out -/

structure Endable (w : World) : Prop where
  housed : Housed w
  upright : Upright w
  player : ∀ k, w.screen.vc = some k → (w.vcs k).player ≠ none

/-- The events that are still to come: `viewDidAppear`, the exit button, and `viewDismissed`. -/
def Screen.toGo : Screen → ℕ
  | .inline => 0
  | .dismissing _ => 1
  | .presented _ => 2
  | .presenting _ => 3

def Event.leaves : Event → Bool
  | .viewDidAppear | .fullTap .fullScreen | .viewDismissed => true
  | _ => false

theorem Endable.next (hi : Endable w) : w.screen = .inline ∨ ∃ e w', e.leaves = true ∧
    w.enabled e ∧ w.step accepts e = .ok w' ∧ Endable w' ∧
      w'.screen.toGo < w.screen.toGo := by
  have keep : ∀ {e w'}, w.enabled e → w.step accepts e = .ok w' →
      (∀ k, w'.screen.vc = some k → w.screen.vc = some k) → Endable w' := by
    intro e w' he h hs
    refine ⟨hi.housed.step he h, hi.upright.step he h, fun k hk => ?_⟩
    rw [step_vcPlayer (hi.housed.opened k (hs k hk)) he h]
    exact hi.player k (hs k hk)
  cases hsc : w.screen with
  | inline => exact .inl rfl
  | presenting k =>
    have he : w.enabled .viewDidAppear := by simp only [World.enabled, hsc]
    have hstep : w.step accepts .viewDidAppear =
        .ok { w.fullPut k (PsVideoFullViewVC.viewDidAppear (w.fullScope k)) with
          screen := .presented k } := by simp only [World.step, hsc, Screen.vc]
    refine .inr ⟨_, _, rfl, he, hstep, keep he hstep fun j hj => ?_, by simp [Screen.toGo]⟩
    rw [hsc]; exact hj
  | presented k =>
    have he : w.enabled (.fullTap .fullScreen) := by
      simp only [World.enabled, hsc, PsVideoControlsView.canTap]
    have hk : w.screen.vc = some k := congrArg Screen.vc hsc
    have hr := hi.upright k hk (by rw [hsc]; simp)
    cases hstep : w.step accepts (.fullTap .fullScreen) with
    | error t =>
      cases (fullTap_error_iff he).mp hstep with
      | fullTap _ hc => exact absurd hc (Control.no_crash (by simp) (by simp) (by simp))
      | fullObserver hj hn =>
        obtain rfl := Option.some.inj (hk.symm.trans hj)
        exact absurd hr hn
    | ok w' =>
      have hs' : w'.screen = .dismissing k := by
        obtain ⟨j, s, hj, _, _, _, rfl⟩ := fullTap_ok he hstep
        obtain rfl := Option.some.inj (hk.symm.trans hj)
        rfl
      refine .inr ⟨_, w', rfl, he, hstep, keep he hstep fun j hj => ?_, by simp [hs', Screen.toGo]⟩
      rw [hs'] at hj
      rw [hsc]; exact hj
  | dismissing k =>
    have he : w.enabled .viewDismissed := by simp only [World.enabled, hsc]
    have hk : w.screen.vc = some k := congrArg Screen.vc hsc
    cases hstep : w.step accepts .viewDismissed with
    | error t =>
      cases hi.housed.viewDismissed_error.mp hstep with
      | dismissed hj hn => exact absurd hn (hi.player _ hj)
    | ok w' =>
      have hs' : w'.screen = .inline := by
        obtain ⟨j, p, layer, _, _, _, rfl⟩ := viewDismissed_ok he hstep
        rfl
      refine .inr ⟨_, w', rfl, he, hstep, keep he hstep fun j hj => ?_, by simp [hs', Screen.toGo]⟩
      rw [hs'] at hj; cases hj

end Steps

/-- **A session can be ended exactly if it has a player**: from every state reached, some run leads
back to the inline views iff the controller on the screen, if there is one, was given a player. -/
theorem session_ends_iff {accepts : String → Bool} {es : List Event} {w : World}
    (h : Steps (app accepts) .launch es w) :
    CanReach (app accepts) (fun w' => w'.screen = .inline) w ↔
      ∀ k, w.screen.vc = some k → (w.vcs k).player ≠ none := by
  obtain ⟨hhoused, hup⟩ : Housed w ∧ Upright w := h.invariant (I := fun w => Housed w ∧ Upright w)
    (fun s e s' hi he hs => ⟨hi.1.step he hs, hi.2.step he hs⟩)
    ⟨housed_launch, fun k hk => by cases hk⟩
  constructor
  · intro hc k hk hp
    refine CanReach.never (I := fun w => Opened w ∧ w.screen.vc = some k ∧ (w.vcs k).player = none)
      (fun s e s' hi he hs => ?_) (fun s hi hin => ?_) ⟨hhoused.opened, hk, hp⟩ hc
    · exact ⟨hi.1.step he hs, step_orphan hi.1 hi.2.1 hi.2.2 he hs⟩
    · have hk := hi.2.1
      rw [hin] at hk; cases hk
  · intro hp
    refine CanReach.of_measure (fun w => w.screen.toGo) (fun s hi => ?_)
      (⟨hhoused, hup, hp⟩ : Endable w)
    exact hi.next.imp_right fun ⟨e, w', _, hstep⟩ => ⟨e, w', hstep⟩

/-- A session that is opened before the first url update is never left. -/
theorem session_ends_iff_early : ∃ w, Steps (app fun _ => true) .launch
    [.mount, .property 0 (.play true), .delayedBlock 0, .tap 0 .fullScreen] w ∧
    ¬ CanReach (app fun _ => true) (fun w' => w'.screen = .inline) w := by
  obtain ⟨w, hw, hobs⟩ := Steps.of_exec_map (app fun _ => true) .launch
    [.mount, .property 0 (.play true), .delayedBlock 0, .tap 0 .fullScreen]
    (fun w => (w.screen.vc, (w.vcs ⟨0, 0⟩).player)) (a := (some ⟨0, 0⟩, none)) (by decide +kernel)
  obtain ⟨hk, hp⟩ := Prod.mk.inj hobs
  exact ⟨w, hw, fun hc => (session_ends_iff hw).mp hc _ hk hp⟩

end PsVideo
