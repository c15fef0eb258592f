import PsVideo.Timers

/-!
# PsVideo.TimerRuns

The timers in every state that a run reaches. `isTimerRunning` is never cleared, so the condition
under which it says the truth lets an object start one timer and keeps it from firing unless a menu
is open.
-/

namespace PsVideo

open Machine

/-- `o` has at most one live timer, it is the one in the field, and `isTimerRunning` iff there is
one. -/
structure OneTimer (o : Owner) (e : Env) (c : Controller) : Prop where
  one : (e.timersOf o).length ≤ 1
  field : ∀ t ∈ e.timersOf o, c.timer = some t
  running : c.isTimerRunning = true ↔ e.timersOf o ≠ []

theorem Clock.Sound.oneTimer {o : Owner} {e : Env} {c : Controller} (h : (c.clock e o).Sound) :
    OneTimer o e c := by
  cases hr : c.isTimerRunning with
  | true =>
    obtain ⟨t, ht, hl⟩ := h.one hr
    have ht : c.timer = some t := ht
    have hl : e.timersOf o = [t] := hl
    exact ⟨by simp [hl], by simp [hl, ht], by simp [hl, hr]⟩
  | false =>
    have hl : e.timersOf o = [] := h.none hr
    exact ⟨by simp [hl], by simp [hl], by simp [hl, hr]⟩

/-- A timer is started only while none runs, and fires only while a menu is open. -/
def TimerSafe (w : World) : Event → Bool
  | .tap v .playerView => !(w.views v).isTimerRunning
  | .fullTap .playerView => ∀ k ∈ w.screen.vc, (w.vcs k).isTimerRunning = false
  | .viewDismissed => ∀ k ∈ w.screen.vc, w.env.isPlaying (w.vcs k).player = true →
      (w.views (w.vcs k).delegate).isTimerRunning = false
  | .timer ⟨.view v, _⟩ => !(w.views v).controlsView.menu.idle
  | .timer ⟨.vc k, _⟩ => !(w.vcs k).controlsView.menu.idle
  | _ => true

def TimerRun (w : World) (e : Event) : Prop := TimerSafe w e = true

instance (w : World) (e : Event) : Decidable (TimerRun w e) := inferInstanceAs (Decidable (_ = _))

section Runs

variable {accepts : String → Bool} {e : Event} {w w' : World}

/-- A controller is being presented from the tap on the full-screen button until it appears. -/
theorem step_presenting {k : VcId} (he : w.enabled e) (h : w.step accepts e = .ok w')
    (hk : w'.screen = .presenting k) :
    w.screen = .presenting k ∧ e ≠ .viewDidAppear ∨
      ∃ v, e = .tap v .fullScreen ∧ k = w.nextVc v := by
  cases e with
  | tap v c =>
    by_cases hf : c = .fullScreen
    · subst hf
      obtain ⟨s, layer, _, _, _, rfl⟩ := fullScreen_ok h
      cases hk
      exact .inr ⟨v, rfl, rfl⟩
    · obtain ⟨s, _, rfl⟩ := tap_ok hf h
      exact .inl ⟨hk, by simp⟩
  | fullTap c =>
    obtain ⟨j, s, _, _, _, _, rfl⟩ := fullTap_ok he h
    refine .inl ⟨?_, by simp⟩
    dsimp only at hk
    split at hk
    · cases hk
    · exact hk
  | viewDidAppear =>
    obtain ⟨j, _, rfl⟩ := viewDidAppear_ok he h
    cases hk
  | viewDismissed =>
    obtain ⟨j, p, layer, _, _, _, rfl⟩ := viewDismissed_ok he h
    cases hk
  | property v p =>
    by_cases hp : ∃ u, p = .url u
    · obtain ⟨u, rfl⟩ := hp
      obtain ⟨_, rfl⟩ := url_ok h
      exact .inl ⟨hk, by simp⟩
    · obtain rfl | ⟨s, _, rfl⟩ := property_ok (fun u hu => hp ⟨u, hu⟩) h <;>
        exact .inl ⟨hk, by simp⟩
  | background =>
    cases h
    exact .inl ⟨(background_screen w).symm.trans hk, by simp⟩
  | timer t =>
    cases h
    exact .inl ⟨(SilentStep.timer w t).screen.symm.trans hk, by simp⟩
  | tick t => exact .inl ⟨(SilentStep.tick h).screen.symm.trans hk, by simp⟩
  | mainBlock =>
    obtain ⟨_, _, _, rfl⟩ := mainBlock_ok he h
    exact .inl ⟨hk, by simp⟩
  | _ => cases h; exact .inl ⟨hk, by simp⟩

/-- What keeps an object alive does so only once it has been made. -/
structure Living (w : World) : Prop extends Present w where
  own : ∀ o, (w.clock o).Own o
  viewTimers : ∀ v, w.nextView ≤ v → w.env.timersOf (.view v) = []
  vcTimers : ∀ k, ¬ w.Made k → w.env.timersOf (.vc k) = []

namespace Living

theorem launch : Living .launch where
  toPresent := .launch
  own o := by cases o <;> exact fun t ht => by cases ht
  viewTimers _ _ := rfl
  vcTimers _ _ := rfl

theorem timersOf_ne_nil {o : Owner} (h : w.env.timers.any (·.owner == o) = true) :
    w.env.timersOf o ≠ [] := by
  obtain ⟨t, ht, ho⟩ := List.any_eq_true.mp h
  have hm : t ∈ w.env.timersOf o :=
    List.mem_filter.mpr ⟨ht, decide_eq_true (beq_iff_eq.mp ho)⟩
  exact List.ne_nil_of_mem hm

theorem viewAlive_iff (hi : Living w) {v : ViewId} : w.viewAlive v = true ↔ v < w.nextView := by
  refine ⟨fun h => ?_, hi.toRetained.viewAlive⟩
  unfold World.viewAlive at h
  simp only [Bool.or_eq_true] at h
  obtain (((hm | ht) | hd) | hc) | hk := h
  · exact hi.mounted v hm
  · by_contra hn
    exact timersOf_ne_nil ht (hi.viewTimers v (Nat.le_of_not_lt hn))
  · exact hi.delayed v (List.contains_iff_mem.mp hd)
  · by_contra hn
    rw [hi.viewControls v, if_neg hn] at hc
    cases hc
  · obtain ⟨n, hn, hk⟩ := List.any_eq_true.mp hk
    have hmade : w.Made ⟨v, n⟩ := List.mem_range.mp hn
    obtain ⟨hv, _⟩ := Bool.and_eq_true_iff.mp hk
    rw [← beq_iff_eq.mp hv]
    exact hi.delegate _ hmade

theorem vcAlive_iff (hi : Living w) {k : VcId} : w.vcAlive k = true ↔ w.Made k := by
  refine ⟨fun h => ?_, hi.toRetained.vcAlive⟩
  unfold World.vcAlive at h
  simp only [Bool.or_eq_true] at h
  obtain (hs | ht) | hc := h
  · exact hi.opened k (beq_iff_eq.mp hs)
  · by_contra hn
    exact timersOf_ne_nil ht (hi.vcTimers k hn)
  · by_contra hn
    rw [hi.vcControls k, if_neg hn] at hc
    cases hc

/-- Only a view that has been made starts a timer. -/
theorem lt_of_start (hi : Living w) (he : w.enabled e) {v : ViewId}
    (h : ClockAct.by w e (.view v) .start) : v < w.nextView := by
  obtain rfl | ⟨_, k, hk, hd, _⟩ | ⟨_, ha, _⟩ := h
  · exact hi.mounted v he.1
  · rw [← hd]; exact hi.delegate k (hi.opened k hk)
  · exact hi.viewAlive_iff.mp ha

theorem made_of_start (hi : Living w) {k : VcId} (h : ClockAct.by w e (.vc k) .start) :
    w.Made k := by
  obtain ⟨_, hk, _⟩ | ⟨_, hk⟩ := h
  · exact hi.opened k hk
  · exact hi.opened k (congrArg Screen.vc hk)

theorem step (hi : Living w) (he : w.enabled e) (h : w.step accepts e = .ok w') : Living w' := by
  have hc := step_clocks hi.own he h
  obtain ⟨hn, hm⟩ := step_grows he h
  refine ⟨hi.toPresent.step he h, fun o => ?_, fun v hv => ?_, fun k hk => ?_⟩
  · obtain ⟨a, _, hact⟩ := hc o
    rw [hact]
    exact (hi.own o).act a
  · obtain ⟨a, ha, hact⟩ := hc (.view v)
    have hv := Nat.le_trans hn hv
    refine Clock.empty hact ?_ (hi.viewTimers v hv)
    rintro rfl
    exact Nat.not_lt_of_le hv (hi.lt_of_start he ha)
  · obtain ⟨a, ha, hact⟩ := hc (.vc k)
    have hk : ¬ w.Made k := fun hmade => hk (hm k hmade)
    refine Clock.empty hact ?_ (hi.vcTimers k hk)
    rintro rfl
    exact hk (hi.made_of_start ha)

theorem reached {es : List Event} (h : Steps (app accepts) .launch es w) : Living w :=
  h.invariant (fun _ _ _ hi he hs => hi.step he hs) launch

end Living

/-- Every clock is sound, and that of an object not yet made, or of a controller not yet shown, has
never been started. -/
structure Timed (w : World) : Prop extends Living w where
  sound : ∀ o, (w.clock o).Sound
  views : ∀ v, w.nextView ≤ v → (w.views v).isTimerRunning = false
  vcs : ∀ k, ¬ w.Made k → (w.vcs k).isTimerRunning = false
  presenting : ∀ k, w.screen = .presenting k → (w.vcs k).isTimerRunning = false

namespace Timed

theorem launch : Timed .launch where
  toLiving := .launch
  sound o := by cases o <;> exact ⟨(fun hr => by cases hr), fun _ => rfl⟩
  views _ _ := rfl
  vcs _ _ := rfl
  presenting k hk := by cases hk

/-- Where the condition is met, a clock is started only from rest, and never stopped. -/
theorem sound_act (hi : Timed w) (hg : TimerRun w e) {o : Owner} {a : ClockAct}
    (ha : a.by w e o) : ((w.clock o).act o a).Sound := by
  cases a with
  | keep => exact hi.sound o
  | start =>
    refine (hi.sound o).start ?_
    cases o with
    | view v =>
      obtain rfl | ⟨rfl, k, hk, rfl, hp⟩ | ⟨_, _, hr⟩ := ha
      · exact (Bool.not_eq_true' _).mp hg
      · exact of_decide_eq_true hg k hk hp
      · exact hr
    | vc k =>
      obtain ⟨rfl, hk, _⟩ | ⟨_, hk⟩ := ha
      · exact of_decide_eq_true hg k hk
      · exact hi.presenting k hk
    | manager => cases ha
  | stop =>
    cases o with
    | view v => obtain ⟨n, rfl, hidle⟩ := ha; simp [TimerRun, TimerSafe, hidle] at hg
    | vc k => obtain ⟨n, rfl, hidle⟩ := ha; simp [TimerRun, TimerSafe, hidle] at hg
    | manager => cases ha
  | fresh =>
    refine (hi.sound o).fresh ?_
    cases o with
    | view v => exact hi.views v (Nat.le_of_eq ha.2.symm)
    | vc k =>
      obtain ⟨v, _, rfl⟩ := ha
      exact hi.vcs _ (w.not_made_nextVc v)
    | manager => cases ha

theorem step (hi : Timed w) (he : w.enabled e) (hg : TimerRun w e)
    (h : w.step accepts e = .ok w') : Timed w' := by
  have hc := step_clocks hi.own he h
  obtain ⟨hn, hm⟩ := step_grows he h
  refine ⟨hi.toLiving.step he h, fun o => ?_, fun v hv => ?_, fun k hk => ?_, fun k hk => ?_⟩
  · obtain ⟨a, ha, hact⟩ := hc o
    rw [hact]
    exact hi.sound_act hg ha
  · obtain ⟨a, ha, hact⟩ := hc (.view v)
    have hv := Nat.le_trans hn hv
    refine Clock.rests hact ?_ (hi.views v hv)
    rintro rfl
    exact Nat.not_lt_of_le hv (hi.lt_of_start he ha)
  · obtain ⟨a, ha, hact⟩ := hc (.vc k)
    have hk : ¬ w.Made k := fun hmade => hk (hm k hmade)
    refine Clock.rests hact ?_ (hi.vcs k hk)
    rintro rfl
    exact hk (hi.made_of_start ha)
  · obtain ⟨a, ha, hact⟩ := hc (.vc k)
    obtain ⟨hs, hne⟩ | ⟨v, _, rfl⟩ := step_presenting he h hk
    · refine Clock.rests hact ?_ (hi.presenting k hs)
      rintro rfl
      obtain ⟨_, _, hp⟩ | ⟨hv, _⟩ := ha
      · exact hp hs
      · exact hne hv
    · have hnew := w.not_made_nextVc v
      refine Clock.rests hact ?_ (hi.vcs _ hnew)
      rintro rfl
      exact hnew (hi.made_of_start ha)

/-- Where no timer of `o` runs, every timer of `o` that is scheduled later has a later number. -/
theorem since {w₁ : World} {es : List Event} {o : Owner}
    (h : Steps ((app accepts).restrict TimerRun) w₁ es w) (hi : Timed w₁)
    (hr : (w₁.clock o).isTimerRunning = false) : (w.clock o).Since (w₁.clock o).count := by
  have hs := h.invariant (I := fun w => Timed w ∧ (w.clock o).Since (w₁.clock o).count)
    (fun s e s' hi he hs => ?_) ⟨hi, (hi.sound o).since hr⟩
  · exact hs.2
  · refine ⟨hi.1.step he.1 he.2 hs, ?_⟩
    obtain ⟨a, _, hact⟩ := step_clocks hi.1.own he.1 hs o
    rw [hact]
    exact hi.2.act a

end Timed

end Runs

/-- **One timer.** In every run that meets the condition, every view and every full-screen
controller has at most one live timer, the one in its field, and `isTimerRunning` says whether there
is one. And after a tap that brings the controls back, no timer fires that was scheduled before. -/
theorem one_timer {accepts : String → Bool} {pre es : List Event} {w₁ w : World}
    (h₁ : Steps ((app accepts).restrict TimerRun) .launch pre w₁)
    (h : Steps ((app accepts).restrict TimerRun) w₁ es w) :
    ((∀ v, OneTimer (.view v) w.env (w.views v)) ∧
      ∀ k, OneTimer (.vc k) w.env (w.vcs k).toController) ∧
    (∀ v post, es = .tap v .playerView :: post → ∀ n, w.enabled (.timer ⟨.view v, n⟩) →
      w₁.env.timerCount (.view v) ≤ n) ∧
    ∀ k post, es = .fullTap .playerView :: post → w₁.screen.vc = some k →
      ∀ n, w.enabled (.timer ⟨.vc k, n⟩) → w₁.env.timerCount (.vc k) ≤ n := by
  have hi₁ : Timed w₁ := h₁.invariant (fun s e s' hi he hs => hi.step he.1 he.2 hs) .launch
  have hi : Timed w := h.invariant (fun s e s' hi he hs => hi.step he.1 he.2 hs) hi₁
  have hlive : ∀ t, w.enabled (.timer t) → t ∈ w.env.timersOf t.owner := fun t ht =>
    List.mem_filter.mpr ⟨ht, decide_eq_true rfl⟩
  refine ⟨⟨fun v => (hi.sound (.view v)).oneTimer, fun k => (hi.sound (.vc k)).oneTimer⟩, ?_, ?_⟩
  · rintro v post rfl n hn
    have hr : (w₁.clock (.view v)).isTimerRunning = false := by
      cases h with
      | cons he _ _ => exact (Bool.not_eq_true' _).mp he.2
    exact (hi₁.since h hr).live _ (hlive _ hn)
  · rintro k post rfl hk n hn
    have hr : (w₁.clock (.vc k)).isTimerRunning = false := by
      cases h with
      | cons he _ _ => exact of_decide_eq_true he.2 k hk
    exact (hi₁.since h hr).live _ (hlive _ hn)

/-- Both players show, and each has a timer that finds a menu open when it fires. -/
theorem one_timer_session : ∃ w₁ w, Steps ((app fun _ => true).restrict TimerRun) .launch
    [.mount, .property 0 (.url "a"), .property 0 (.play true), .delayedBlock 0,
      .tap 0 .controlsView] w₁ ∧
    Steps ((app fun _ => true).restrict TimerRun) w₁ [.tap 0 .playerView, .tap 0 .settings,
      .timer ⟨.view 0, 0⟩, .tap 0 .fullScreen, .viewDidAppear, .fullTap .settings,
      .timer ⟨.vc ⟨0, 0⟩, 0⟩] w ∧
    (OneTimer (.view 0) w.env (w.views 0) ∧
      OneTimer (.vc ⟨0, 0⟩) w.env (w.vcs ⟨0, 0⟩).toController) ∧
    ∀ n, w.enabled (.timer ⟨.view 0, n⟩) → w₁.env.timerCount (.view 0) ≤ n := by
  obtain ⟨w₁, hw₁, hr⟩ := Steps.of_exec_map ((app fun _ => true).restrict TimerRun) .launch
    [.mount, .property 0 (.url "a"), .property 0 (.play true), .delayedBlock 0,
      .tap 0 .controlsView]
    (fun w₁ => (((app fun _ => true).restrict TimerRun).exec w₁ [.tap 0 .playerView,
      .tap 0 .settings, .timer ⟨.view 0, 0⟩, .tap 0 .fullScreen, .viewDidAppear, .fullTap .settings,
      .timer ⟨.vc ⟨0, 0⟩, 0⟩]).map fun _ => ()) (a := some ()) (by decide +kernel)
  obtain ⟨w, hw, _⟩ := Option.map_eq_some_iff.mp hr
  obtain ⟨⟨hv, hk⟩, hold, _⟩ := one_timer hw₁ (.of_exec hw)
  exact ⟨w₁, w, hw₁, .of_exec hw, ⟨hv 0, hk ⟨0, 0⟩⟩, hold 0 _ rfl⟩

/-- The controls are hidden and brought back twice: the first of the two timers hides them again. -/
theorem not_one_timer : ∃ w, Steps (app fun _ => true) .launch
    [.mount, .tap 0 .controlsView, .tap 0 .playerView, .tap 0 .controlsView, .tap 0 .playerView] w ∧
    ¬ OneTimer (.view 0) w.env (w.views 0) ∧ (w.views 0).controlsView.isHidden = false ∧
    w.enabled (.timer ⟨.view 0, 0⟩) ∧
    ((w.timer ⟨.view 0, 0⟩).views 0).controlsView.isHidden = true := by
  obtain ⟨w, hw, hobs⟩ := Steps.of_exec_map (app fun _ => true) .launch
    [.mount, .tap 0 .controlsView, .tap 0 .playerView, .tap 0 .controlsView, .tap 0 .playerView]
    (fun w => ((w.env.timersOf (.view 0)).length, (w.views 0).controlsView.isHidden,
      decide (w.enabled (.timer ⟨.view 0, 0⟩)),
      ((w.timer ⟨.view 0, 0⟩).views 0).controlsView.isHidden)) (a := (2, false, true, true))
    (by decide +kernel)
  simp only [Prod.mk.injEq] at hobs
  obtain ⟨hn, hv, he, hh⟩ := hobs
  refine ⟨w, hw, fun h => ?_, hv, of_decide_eq_true he, hh⟩
  have hone := h.one
  omega

end PsVideo
