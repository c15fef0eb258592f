import PsVideo.Step

/-!
# PsVideo.Traps

Where a run can end. A wrong `removeTimeObserver` can only come from the full-screen button, in
either of its two states, and a use of a deallocated `self` only from the callback of a time
observer; every other trap is `Trap.plain`.
-/

namespace PsVideo

def Trap.plain : Trap → Bool
  | .unwrapNil | .conversion | .indexOutOfRange => true
  | .deallocatedSelf | .observerNotRegistered => false

theorem toInt_trap {x : Seconds} {t : Trap} (h : x.toInt = .error t) : t = .conversion := by
  unfold Seconds.toInt at h
  split at h
  · split at h <;> cases h; rfl
  · cases h; rfl

theorem formatTimeFor_trap {x : Seconds} {t : Trap} (h : formatTimeFor x = .error t) :
    t = .conversion := by
  unfold formatTimeFor getHoursMinutesSecondsFrom at h
  cases hx : x.toInt with
  | error t' => rw [hx] at h; cases h; exact toInt_trap hx
  | ok n =>
    rw [hx] at h
    simp only at h
    split at h <;> cases h

namespace Scope

variable {p : Option PlayerId} {s : Scope} {t : Trap}

theorem seekTo_trap {q : PlayerId} {ms : Seconds} (h : s.seekTo q ms = .error t) :
    t = .conversion := by
  unfold seekTo at h
  split at h
  · rename_i t' hx; cases h; exact toInt_trap hx
  · cases h

theorem forwardAction_trap (h : s.forwardAction p = .error t) : t = .conversion := by
  unfold forwardAction at h
  split at h
  · cases h
  · split at h
    · cases h
    · split at h <;> exact seekTo_trap h

theorem backwardAction_trap (h : s.backwardAction p = .error t) :
    p = none ∧ t = .unwrapNil ∨ t = .conversion := by
  unfold backwardAction at h
  split at h
  · cases h; exact .inl ⟨rfl, rfl⟩
  · exact .inr (seekTo_trap h)

theorem sliderAction_trap {x : Seconds} (h : s.sliderAction p x = .error t) :
    t = .conversion := by
  unfold sliderAction at h
  cases p with
  | none => cases h
  | some q => exact seekTo_trap h

theorem didSelectRowAt_trap {i : Nat} (h : s.didSelectRowAt p i = .error t) :
    t = .indexOutOfRange := by
  unfold didSelectRowAt at h
  split at h <;> split at h <;> cases h <;> rfl

theorem showTimes_trap {item : AVPlayerItem} (h : s.showTimes item = .error t) :
    t = .conversion := by
  unfold showTimes at h
  dsimp only at h
  split at h
  · rename_i t' hx; cases h; exact formatTimeFor_trap hx
  · split at h
    · rename_i t' hx; cases h; exact formatTimeFor_trap hx
    · cases h

end Scope

open Scope

theorem PsVideoView.control_trap {c : Control} {s : Scope} {t : Trap}
    (h : PsVideoView.control c s = .error t) : t.plain = true := by
  cases c with
  | forward => rw [forwardAction_trap h]; rfl
  | backward => rcases backwardAction_trap h with ⟨_, rfl⟩ | rfl <;> rfl
  | slider x => rw [sliderAction_trap h]; rfl
  | row settings i => rw [didSelectRowAt_trap h]; rfl
  | _ => cases h

theorem FullScope.tryOn_trap {f : Option PlayerId → Scope → Except Trap Scope} {s : FullScope}
    {t : Trap} (h : s.tryOn f = .error t) : f s.self.player s.scope = .error t := by
  unfold FullScope.tryOn at h
  split at h
  · rename_i t' ht; cases h; exact ht
  · cases h

theorem PsVideoFullViewVC.control_trap {c : Control} {s : FullScope} {t : Trap}
    (hc : c ≠ .fullScreen) (h : PsVideoFullViewVC.control c s = .error t) : t.plain = true := by
  cases c with
  | fullScreen => exact absurd rfl hc
  | forward => rw [forwardAction_trap (FullScope.tryOn_trap h)]; rfl
  | backward => rcases backwardAction_trap (FullScope.tryOn_trap h) with ⟨_, rfl⟩ | rfl <;> rfl
  | slider x =>
    have h' := FullScope.tryOn_trap (f := fun p => (·.sliderAction p x)) h
    rw [sliderAction_trap h']; rfl
  | row settings i =>
    have h' := FullScope.tryOn_trap (f := fun p => (·.didSelectRowAt p i)) h
    rw [didSelectRowAt_trap h']; rfl
  | _ => cases h

theorem World.tryPut_trap {w : World} {v : ViewId} {r : Except Trap Scope} {t : Trap}
    (h : w.tryPut v r = .error t) : r = .error t := by
  cases r with
  | error t' => cases h; rfl
  | ok s => cases h

theorem World.tryFullPut_trap {w : World} {k : VcId} {r : Except Trap FullScope} {t : Trap}
    (h : w.tryFullPut k r = .error t) : r = .error t := by
  cases r with
  | error t' => cases h; rfl
  | ok s => cases h

theorem World.fullTap_trap {w : World} {k : VcId} {c : Control} {t : Trap}
    (h : w.fullTap k c = .error t) : PsVideoFullViewVC.control c (w.fullScope k) = .error t := by
  unfold World.fullTap at h
  split at h
  · rename_i t' ht; cases h; exact World.tryFullPut_trap ht
  · cases h

theorem PsVideoView.timeObserverCallback_trap {alive : Bool} {s : Scope} {t : Trap}
    (h : timeObserverCallback alive s = .error t) :
    t = .conversion ∨ alive = false ∧ t = .deallocatedSelf := by
  unfold timeObserverCallback at h
  split at h
  · cases h
  · split at h
    · split at h
      · exact .inl (showTimes_trap h)
      · rename_i ha
        cases h
        exact .inr ⟨(Bool.not_eq_true _).mp ha, rfl⟩
    · cases h

/-- A tick traps on a deallocated `self` or on a time that has no whole seconds. -/
theorem World.tick_trap {w : World} {h : Handle} {t : Trap} (ht : w.tick h = .error t) :
    t = .conversion ∨ t = .deallocatedSelf := by
  unfold World.tick at ht
  split at ht
  · exact (PsVideoView.timeObserverCallback_trap (World.tryPut_trap ht)).imp_right And.right
  · split at ht
    · have hr := World.tryFullPut_trap ht
      unfold PsVideoFullViewVC.timeObserverCallback at hr
      split at hr
      · cases hr
      · split at hr
        · exact .inl (showTimes_trap (FullScope.tryOn_trap hr))
        · cases hr
    · cases ht
  · cases ht

/-- The events other than the full-screen buttons and the ticks trap plainly if at all. -/
theorem step_trap_plain {accepts : String → Bool} {w : World} {e : Event} {t : Trap}
    (h1 : ∀ v, e ≠ .tap v .fullScreen) (h2 : e ≠ .fullTap .fullScreen) (h3 : ∀ h, e ≠ .tick h)
    (h : w.step accepts e = .error t) : t.plain = true := by
  cases e with
  | property v p =>
    simp only [World.step] at h
    cases p with
    | url u =>
      simp only [World.setProperty] at h
      split at h <;> cases h; rfl
    | paused b => cases b <;> cases h
    | play b => cases b <;> cases h
    | _ => cases h
  | tap v c =>
    have hc : c ≠ .fullScreen := fun hc => h1 v (by rw [hc])
    simp only [World.step, tap_eq hc] at h
    exact PsVideoView.control_trap (World.tryPut_trap h)
  | fullTap c =>
    have hc : c ≠ .fullScreen := fun hc => h2 (by rw [hc])
    simp only [World.step] at h
    split at h
    · exact PsVideoFullViewVC.control_trap hc (World.fullTap_trap h)
    · cases h
  | viewDidAppear => simp only [World.step] at h; split at h <;> cases h
  | viewDismissed =>
    simp only [World.step] at h
    split at h
    · simp only [World.viewDismissed] at h
      split at h <;> cases h; rfl
    · cases h
  | mainBlock => simp only [World.step] at h; split at h <;> cases h
  | tick t => exact absurd rfl (h3 t)
  | _ => cases h

end PsVideo
