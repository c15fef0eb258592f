import PsVideo.Conversions
import PsVideo.MenuRuns
import PsVideo.Unwraps

/-!
# PsVideo.Crashes

All the ways the app can crash. `Crash` lists them by the event and the state it arrives in, each
with its trap, and `crash_iff` says that the list is complete and that every entry is a crash.
Tapping a row never crashes, nor does an event that is not on the list.
-/

namespace PsVideo

open Machine

/-- A control of an object that drives the player `p` crashes. -/
inductive Control.Crash (e : Env) (p : Option PlayerId) : Control → Trap → Prop where
  | forward {item : AVPlayerItem} : e.currentItem p = some item →
      ¬ ((Scope.forwardTarget item).scale 1000).Fits → Control.Crash e p .forward .conversion
  | backward {item : AVPlayerItem} : e.currentItem p = some item →
      ¬ ((Scope.backwardTarget item).scale 1000).Fits → Control.Crash e p .backward .conversion
  | noPlayer : p = none → Control.Crash e p .backward .unwrapNil
  | slider {x : Seconds} : p ≠ none → ¬ (x.toFloat.scaleFloat 1000).Fits →
      Control.Crash e p (.slider x) .conversion

/-- The item is ready, and one of its times has no whole seconds in 64 bits. -/
def AVPlayerItem.Unshowable (item : AVPlayerItem) : Prop :=
  item.status = .readyToPlay ∧ ¬ (item.currentTime.seconds.Fits ∧ item.duration.seconds.Fits)

/-- An endless item has no duration to show. -/
theorem AVPlayerItem.Unshowable.of_indefinite {item : AVPlayerItem}
    (h : (item.status, item.duration) = (.readyToPlay, .indefinite)) : item.Unshowable := by
  obtain ⟨hr, hd⟩ := Prod.mk.inj h
  have hends : ¬ (CMTime.seconds .indefinite).Fits := id
  exact ⟨hr, fun hf => hends (hd ▸ hf.2)⟩

inductive Crash (accepts : String → Bool) (w : World) : Event → Trap → Prop where
  | url {v : ViewId} {u : String} : accepts u = false →
      Crash accepts w (.property v (.url u)) .unwrapNil
  | tap {v : ViewId} {c : Control} {t : Trap} : c.Crash w.env w.env.player t →
      Crash accepts w (.tap v c) t
  | fullTap {k : VcId} {c : Control} {t : Trap} : w.screen.vc = some k →
      c.Crash w.env (w.vcs k).player t → Crash accepts w (.fullTap c) t
  | observer {v : ViewId} : ¬ (w.scope v).Removable w.env.player →
      Crash accepts w (.tap v .fullScreen) .observerNotRegistered
  | layer {v : ViewId} : (w.scope v).Removable w.env.player → (w.views v).playerLayer = none →
      Crash accepts w (.tap v .fullScreen) .unwrapNil
  | fullObserver {k : VcId} : w.screen.vc = some k →
      ¬ (w.fullScope k).scope.Removable (w.vcs k).player →
      Crash accepts w (.fullTap .fullScreen) .observerNotRegistered
  | dismissed {k : VcId} : w.screen.vc = some k → (w.vcs k).player = none →
      Crash accepts w .viewDismissed .unwrapNil
  | label {v : ViewId} {n : ℕ} {item : AVPlayerItem} :
      w.env.currentItem w.env.player = some item → item.Unshowable →
      Crash accepts w (.tick ⟨.view v, n⟩) .conversion
  | fullLabel {k : VcId} {n : ℕ} {item : AVPlayerItem} :
      w.env.currentItem (w.vcs k).player = some item → item.Unshowable →
      Crash accepts w (.tick ⟨.vc k, n⟩) .conversion

/-! ## The handlers -/

/-- A handler that can only trap on a conversion does so exactly if it does not convert. -/
theorem error_iff_of_converts {α : Type} {r : Except Trap α} {t : Trap}
    (h : ∀ t, r = .error t → t = .conversion) :
    r = .error t ↔ t = .conversion ∧ ¬ Converts r := by
  constructor
  · intro ht
    obtain rfl := h t ht
    exact ⟨rfl, fun hc => hc ht⟩
  · rintro ⟨rfl, hc⟩
    exact not_not.mp hc

namespace Scope

variable {s : Scope} {p : Option PlayerId} {t : Trap}

/-- Without an item there is nowhere to go forward. -/
theorem forwardAction_idle (hi : s.env.currentItem p = none) : s.forwardAction p = .ok s := by
  cases p with
  | none => rfl
  | some q =>
    have hi : (s.env.players q).currentItem = none := hi
    simp only [forwardAction, hi]

/-- Without an item the player stands at 0, and going back leads there. -/
theorem backwardAction_idle {q : PlayerId} (hi : s.env.currentItem (some q) = none) :
    Converts (s.backwardAction (some q)) := by
  have hi : (s.env.players q).currentItem = none := hi
  have ht : (s.env.players q).currentTime = .zero := by simp [AVPlayer.currentTime, hi]
  have hback : (Seconds.num 0).gt (CMTime.zero.seconds.add (-5)) = true := by decide +kernel
  simp only [backwardAction, ht, if_pos hback, seekTo_converts]
  exact Seconds.scale_fits_iff.mpr (by norm_num)

theorem forwardAction_error : s.forwardAction p = .error t ↔ Control.Crash s.env p .forward t := by
  rw [error_iff_of_converts fun _ => forwardAction_trap]
  constructor
  · rintro ⟨rfl, hc⟩
    cases hi : s.env.currentItem p with
    | none => exact absurd (by rw [forwardAction_idle hi]; exact converts_ok s) hc
    | some item => exact .forward hi (mt (forwardAction_converts hi).mpr hc)
  · intro h
    cases h with
    | forward hi hf => exact ⟨rfl, mt (forwardAction_converts hi).mp hf⟩

theorem backwardAction_error :
    s.backwardAction p = .error t ↔ Control.Crash s.env p .backward t := by
  constructor
  · intro h
    obtain ⟨hp, rfl⟩ | rfl := backwardAction_trap h
    · exact .noPlayer hp
    · cases p with
      | none => cases h
      | some q =>
        cases hi : s.env.currentItem (some q) with
        | none => exact absurd h (backwardAction_idle hi)
        | some item => exact .backward hi (mt (backwardAction_converts hi).mpr (not_not.mpr h))
  · intro h
    cases h with
    | backward hi hf => exact not_not.mp (mt (backwardAction_converts hi).mp hf)
    | noPlayer hp => exact backwardAction_unwraps.mpr hp

theorem sliderAction_error {x : Seconds} :
    s.sliderAction p x = .error t ↔ Control.Crash s.env p (.slider x) t := by
  rw [error_iff_of_converts fun _ => sliderAction_trap]
  cases p with
  | none =>
    refine iff_of_false (fun h => h.2 (converts_ok _)) fun h => ?_
    cases h with
    | slider hp _ => exact hp rfl
  | some q =>
    have hc : Converts (s.sliderAction (some q) x) ↔ (x.toFloat.scaleFloat 1000).Fits :=
      seekTo_converts
    rw [hc]
    constructor
    · rintro ⟨rfl, hf⟩
      exact .slider (Option.some_ne_none q) hf
    · intro h
      cases h with
      | slider _ hf => exact ⟨rfl, hf⟩

theorem removeTimeObserver_error :
    s.removeTimeObserver p = .error t ↔ t = .observerNotRegistered ∧ ¬ s.Removable p := by
  rw [← removable_iff]
  cases hs : s.removeTimeObserver p with
  | error t' =>
    obtain rfl := removeTimeObserver_trap hs
    simp [eq_comm]
  | ok s' => simp

theorem showTimes_error {item : AVPlayerItem} : s.showTimes item = .error t ↔
    t = .conversion ∧ ¬ (item.currentTime.seconds.Fits ∧ item.duration.seconds.Fits) := by
  rw [error_iff_of_converts fun _ => showTimes_trap, showTimes_converts]

end Scope

theorem FullScope.tryOn_error {f : Option PlayerId → Scope → Except Trap Scope} {s : FullScope}
    {t : Trap} : s.tryOn f = .error t ↔ f s.self.player s.scope = .error t :=
  ⟨tryOn_trap, fun h => by simp only [tryOn, h]⟩

/-- The controls that never crash. -/
theorem Control.no_crash {c : Control} {e : Env} {p : Option PlayerId} {t : Trap}
    (h1 : c ≠ .forward) (h2 : c ≠ .backward) (h3 : ∀ x, c ≠ .slider x) : ¬ c.Crash e p t := by
  rintro (_ | _ | _ | _)
  · exact h1 rfl
  · exact h2 rfl
  · exact h2 rfl
  · exact h3 _ rfl

theorem PsVideoView.control_error {c : Control} {s : Scope} {t : Trap}
    (ht : s.self.controlsView.canTap c) :
    PsVideoView.control c s = .error t ↔ c.Crash s.env s.env.player t := by
  cases c with
  | forward => exact Scope.forwardAction_error
  | backward => exact Scope.backwardAction_error
  | slider x => exact Scope.sliderAction_error
  | row settings i =>
    obtain ⟨s', hs⟩ := Scope.didSelectRowAt_total s.env.player ht
    refine iff_of_false ?_ (Control.no_crash (by simp) (by simp) (by simp))
    simp only [control, hs]
    rintro ⟨⟩
  | _ =>
    refine iff_of_false ?_ (Control.no_crash (by simp) (by simp) (by simp))
    rintro ⟨⟩

theorem PsVideoFullViewVC.control_error {c : Control} {s : FullScope} {t : Trap}
    (ht : s.self.controlsView.canTap c) (hc : c ≠ .fullScreen) :
    PsVideoFullViewVC.control c s = .error t ↔ c.Crash s.env s.self.player t := by
  cases c with
  | fullScreen => exact absurd rfl hc
  | forward => exact FullScope.tryOn_error.trans Scope.forwardAction_error
  | backward => exact FullScope.tryOn_error.trans Scope.backwardAction_error
  | slider x =>
    exact (FullScope.tryOn_error (f := fun p => (·.sliderAction p x))).trans
      Scope.sliderAction_error
  | row settings i =>
    obtain ⟨s', hs⟩ := Scope.didSelectRowAt_total (s := s.scope) s.self.player ht
    refine iff_of_false ?_ (Control.no_crash (by simp) (by simp) (by simp))
    simp only [control, FullScope.tryOn, hs]
    rintro ⟨⟩
  | _ =>
    refine iff_of_false ?_ (Control.no_crash (by simp) (by simp) (by simp))
    rintro ⟨⟩

theorem PsVideoView.timeObserverCallback_error {s : Scope} {t : Trap} :
    timeObserverCallback true s = .error t ↔ ∃ item,
      s.env.currentItem s.env.player = some item ∧ item.Unshowable ∧ t = .conversion := by
  unfold timeObserverCallback
  cases hi : s.env.currentItem s.env.player with
  | none => simp
  | some item =>
    by_cases hr : item.status = .readyToPlay
    · simp [hr, Scope.showTimes_error, AVPlayerItem.Unshowable, and_comm]
    · simp [hr, AVPlayerItem.Unshowable]

theorem PsVideoFullViewVC.timeObserverCallback_error {s : FullScope} {t : Trap} :
    timeObserverCallback s = .error t ↔
      ∃ item, s.env.currentItem s.self.player = some item ∧ item.Unshowable ∧ t = .conversion := by
  unfold timeObserverCallback
  cases hi : s.env.currentItem s.self.player with
  | none => simp
  | some item =>
    by_cases hr : item.status = .readyToPlay
    · simp [hr, FullScope.tryOn_error, Scope.showTimes_error, AVPlayerItem.Unshowable, and_comm]
    · simp [hr, AVPlayerItem.Unshowable]

/-! ## The events -/

section Events

variable {accepts : String → Bool} {w : World} {t : Trap}

theorem fullScreen_error {v : ViewId} : w.step accepts (.tap v .fullScreen) = .error t ↔
    Crash accepts w (.tap v .fullScreen) t := by
  have hsplit : w.step accepts (.tap v .fullScreen) = .error t ↔
      (t = .observerNotRegistered ∧ ¬ (w.scope v).Removable w.env.player) ∨
        t = .unwrapNil ∧ (w.scope v).Removable w.env.player ∧ (w.views v).playerLayer = none := by
    rw [← Scope.removable_iff]
    simp only [World.step, World.tap, PsVideoView.fullScreenAction, PsVideoView.removeObservers]
    rw [show (w.scope v).env.player = w.env.player from rfl]
    cases hs : (w.scope v).removeTimeObserver w.env.player with
    | error t' =>
      obtain rfl := Scope.removeTimeObserver_trap hs
      simp [eq_comm]
    | ok s =>
      have hl : s.self.playerLayer = (w.views v).playerLayer :=
        (Frame.removeTimeObserver hs).playerLayer
      cases hn : (w.views v).playerLayer with
      | none => simp [hl, hn, eq_comm]
      | some layer => simp [hl, hn]
  rw [hsplit]
  constructor
  · rintro (⟨rfl, hr⟩ | ⟨rfl, hr, hl⟩)
    · exact .observer hr
    · exact .layer hr hl
  · intro h
    cases h with
    | tap hc => exact absurd hc (Control.no_crash (by simp) (by simp) (by simp))
    | observer hr => exact .inl ⟨rfl, hr⟩
    | layer hr hl => exact .inr ⟨rfl, hr, hl⟩

theorem fullTap_error_iff {c : Control} (he : w.enabled (.fullTap c)) :
    w.step accepts (.fullTap c) = .error t ↔ Crash accepts w (.fullTap c) t := by
  cases hsc : w.screen with
  | inline | presenting k => simp only [World.enabled, hsc] at he
  | presented k | dismissing k =>
    simp only [World.enabled, hsc] at he
    have hk : w.screen.vc = some k := congrArg Screen.vc hsc
    have hstep : w.step accepts (.fullTap c) = w.fullTap k c := by simp only [World.step, hk]
    rw [hstep, fullTap_error]
    by_cases hc : c = .fullScreen
    · subst hc
      refine (FullScope.tryOn_error.trans Scope.removeTimeObserver_error).trans ?_
      constructor
      · rintro ⟨rfl, hr⟩
        exact .fullObserver hk hr
      · intro h
        cases h with
        | fullTap _ hcr => exact absurd hcr (Control.no_crash (by simp) (by simp) (by simp))
        | fullObserver hk' hr =>
          obtain rfl := Option.some.inj (hk.symm.trans hk')
          exact ⟨rfl, hr⟩
    · rw [PsVideoFullViewVC.control_error he hc]
      constructor
      · exact fun h => .fullTap hk h
      · intro h
        cases h with
        | fullTap hk' hcr =>
          obtain rfl := Option.some.inj (hk.symm.trans hk')
          exact hcr
        | fullObserver => exact absurd rfl hc

/-- A tick finds its object, so that it runs the code of the label. -/
theorem Present.tick_error (hi : Present w) {h : Handle} (he : w.enabled (.tick h)) :
    w.step accepts (.tick h) = .error t ↔ Crash accepts w (.tick h) t := by
  obtain ⟨o, n⟩ := h
  cases o with
  | view v =>
    have hv : w.step accepts (.tick ⟨.view v, n⟩) = .error t ↔
        PsVideoView.timeObserverCallback (w.viewAlive v) (w.scope v) = .error t := tryPut_error
    rw [hv, hi.tick_view he, PsVideoView.timeObserverCallback_error]
    constructor
    · rintro ⟨item, hitem, hr, rfl⟩
      exact .label hitem hr
    · intro h
      cases h with
      | label hitem hr => exact ⟨_, hitem, hr, rfl⟩
  | vc k =>
    have hput : ∀ r, w.tryFullPut k r = .error t ↔ r = .error t := fun r =>
      ⟨World.tryFullPut_trap, fun h => by rw [h]; rfl⟩
    simp only [World.step, World.tick, hi.tick_vc he, if_true]
    rw [hput, PsVideoFullViewVC.timeObserverCallback_error]
    constructor
    · rintro ⟨item, hitem, hr, rfl⟩
      exact .fullLabel hitem hr
    · intro h
      cases h with
      | fullLabel hitem hr => exact ⟨_, hitem, hr, rfl⟩
  | manager => exact iff_of_false (fun h => by cases h) (fun h => by cases h)

theorem Housed.viewDismissed_error (hi : Housed w) :
    w.step accepts .viewDismissed = .error t ↔ Crash accepts w .viewDismissed t := by
  have hnil : w.step accepts .viewDismissed = .error t → t = .unwrapNil := by
    intro h
    simp only [World.step, World.viewDismissed] at h
    split at h
    · split at h <;> cases h
      rfl
    · cases h
  constructor
  · intro h
    obtain rfl := hnil h
    cases hk : w.screen.vc with
    | none => simp only [World.step, hk] at h; cases h
    | some k => exact .dismissed hk ((hi.viewDismissed_unwraps hk).mp h)
  · intro h
    cases h with
    | dismissed hk hp => exact (hi.viewDismissed_unwraps hk).mpr hp

/-- An event that can arrive crashes exactly as listed. -/
theorem Housed.error_iff {e : Event} (hi : Housed w) (he : w.enabled e) :
    w.step accepts e = .error t ↔ Crash accepts w e t := by
  cases e with
  | property v p =>
    cases p with
    | url u =>
      simp only [World.step, World.setProperty]
      split
      · rename_i hu
        refine iff_of_false (fun h => by cases h) fun h => ?_
        cases h with
        | url hn => rw [hu] at hn; cases hn
      · rename_i hu
        constructor
        · intro h; cases h; exact .url ((Bool.not_eq_true _).mp hu)
        · intro h; cases h; rfl
    | paused b | play b =>
      refine iff_of_false (fun h => ?_) (fun h => by cases h)
      cases b <;> cases h
    | _ => exact iff_of_false (fun h => by cases h) (fun h => by cases h)
  | tap v c =>
    by_cases hc : c = .fullScreen
    · subst hc; exact fullScreen_error
    · have hstep : w.step accepts (.tap v c) = w.tap v c := rfl
      rw [hstep, tap_eq hc, tryPut_error, PsVideoView.control_error he.2.2]
      constructor
      · exact .tap
      · intro h
        cases h with
        | tap hcr => exact hcr
        | observer | layer => exact absurd rfl hc
  | fullTap c => exact fullTap_error_iff he
  | tick t => exact hi.toPresent.tick_error he
  | viewDismissed => exact hi.viewDismissed_error
  | viewDidAppear | mainBlock =>
    refine iff_of_false (fun h => ?_) (fun h => by cases h)
    simp only [World.step] at h
    split at h <;> cases h
  | _ => exact iff_of_false (fun h => by cases h) (fun h => by cases h)

end Events

theorem housed {accepts : String → Bool} {es : List Event} {w : World}
    (h : Steps (app accepts) .launch es w) : Housed w :=
  h.invariant (fun _ _ _ hi he hs => hi.step he hs) housed_launch

/-- **The list of crashes is complete**: in every state reached, an event that can arrive ends the
app exactly with the traps on the list. -/
theorem crash_iff {accepts : String → Bool} {es : List Event} {w : World} {e : Event} {t : Trap}
    (h : Steps (app accepts) .launch es w) (he : w.enabled e) :
    w.step accepts e = .error t ↔ Crash accepts w e t := (housed h).error_iff he

/-- The full-screen button before the first delayed block has made a layer. -/
theorem crash_iff_early : ∃ w, Steps (app fun _ => true) .launch
    [.mount, .property 0 (.url "a"), .property 0 (.play true)] w ∧
    w.step (fun _ => true) (.tap 0 .fullScreen) = .error .unwrapNil := by
  obtain ⟨w, hw, hobs⟩ := Steps.of_exec_map (app fun _ => true) .launch
    [.mount, .property 0 (.url "a"), .property 0 (.play true)]
    (fun w => (decide (w.enabled (.tap 0 .fullScreen)), (w.views 0).timeObserver,
      (w.views 0).playerLayer))
    (a := (true, none, none)) (by decide +kernel)
  obtain ⟨he, hobs⟩ := Prod.mk.inj hobs
  obtain ⟨ht, hl⟩ := Prod.mk.inj hobs
  have hr : (w.scope 0).Removable w.env.player := fun token htok => by
    have htok : (w.views 0).timeObserver = some token := htok
    rw [ht] at htok; cases htok
  exact ⟨w, hw, (crash_iff hw (of_decide_eq_true he)).mpr (.layer hr hl)⟩

end PsVideo
