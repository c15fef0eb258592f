import PsVideo.TimerRuns

/-!
# PsVideo.StaleTimers

Timers that nothing stops any more. `resetTimer` invalidates the timer in the field, and
`startTimer` overwrites the field whatever it holds. A timer that was running then is stale: no
handler can reach it, so it stays scheduled, and its target with it.
-/

namespace PsVideo

open Machine

namespace Clock

/-- The scheduled timers that are not in the field. -/
def stale (c : Clock) : List Handle := c.live.filter (some · ≠ c.timer)

/-- Timers are numbered as they are made, and if the one in the field runs it is the newest. -/
structure Numbered (c : Clock) : Prop where
  count : ∀ t ∈ c.live, t.serial < c.count
  newest : c.live = c.stale ∨ ∃ t, c.timer = some t ∧ c.live = c.stale ++ [t]

variable {o : Owner} {c : Clock}

theorem Numbered.stale_prefix (h : c.Numbered) : c.stale <+: c.live := by
  obtain hl | ⟨t, _, hl⟩ := h.newest
  · exact hl ▸ List.prefix_rfl
  · exact ⟨[t], hl.symm⟩

/-- The new timer is in the field, and what ran before is stale. -/
theorem Numbered.stale_start (h : c.Numbered) : (c.act o .start).stale = c.live := by
  have hold : c.live.filter (some · ≠ some ⟨o, c.count⟩) = c.live := by
    refine List.filter_eq_self.mpr fun t ht => decide_eq_true fun hnew => ?_
    have hlt := h.count t ht
    rw [Option.some.inj hnew] at hlt
    exact Nat.lt_irrefl _ hlt
  rw [stale, act, List.filter_append, hold]
  simp

theorem stale_stop (o : Owner) (c : Clock) : (c.act o .stop).stale = c.stale := by
  simp [stale, act, List.filter_filter]

theorem stale_fresh (o : Owner) (c : Clock) : (c.act o .fresh).stale = c.live :=
  List.filter_eq_self.mpr fun _ _ => by simp [act]

theorem Numbered.act (h : c.Numbered) (a : ClockAct) : (c.act o a).Numbered := by
  cases a with
  | keep => exact h
  | start =>
    refine ⟨fun t ht => ?_, .inr ⟨⟨o, c.count⟩, rfl, by rw [h.stale_start]; rfl⟩⟩
    rcases List.mem_append.mp ht with ht | ht
    · exact Nat.lt_succ_of_lt (h.count t ht)
    · rw [List.mem_singleton.mp ht]; exact Nat.lt_succ_self _
  | stop =>
    exact ⟨fun t ht => h.count t (List.mem_of_mem_filter ht), .inl (stale_stop o c).symm⟩
  | fresh => exact ⟨h.count, .inl (stale_fresh o c).symm⟩

/-- No act stops a stale timer. -/
theorem Numbered.stale_act (h : c.Numbered) (a : ClockAct) : c.stale <+: (c.act o a).stale := by
  cases a with
  | keep => exact List.prefix_rfl
  | start => rw [h.stale_start]; exact h.stale_prefix
  | stop => exact (stale_stop o c).symm ▸ List.prefix_rfl
  | fresh => rw [stale_fresh]; exact h.stale_prefix

end Clock

/-! ## The world -/

/-- What holds of the timers in every run. -/
structure TimersNumbered (w : World) : Prop extends Living w where
  clock : ∀ o, (w.clock o).Numbered

namespace TimersNumbered

variable {accepts : String → Bool} {w w' : World} {e : Event}

theorem launch : TimersNumbered .launch where
  toLiving := .launch
  clock o := by cases o <;> exact ⟨(fun t ht => by cases ht), .inl rfl⟩

theorem step (hi : TimersNumbered w) (he : w.enabled e) (h : w.step accepts e = .ok w') :
    TimersNumbered w' := by
  refine ⟨hi.toLiving.step he h, fun o => ?_⟩
  obtain ⟨a, _, hact⟩ := step_clocks hi.own he h o
  rw [hact]
  exact (hi.clock o).act a

theorem stale_step (hi : TimersNumbered w) (he : w.enabled e) (h : w.step accepts e = .ok w')
    (o : Owner) : (w.clock o).stale <+: (w'.clock o).stale := by
  obtain ⟨a, _, hact⟩ := step_clocks hi.own he h o
  rw [hact]
  exact (hi.clock o).stale_act a

theorem stale_steps {es : List Event} (h : Steps (app accepts) w es w') (hi : TimersNumbered w) :
    TimersNumbered w' ∧ ∀ o, (w.clock o).stale <+: (w'.clock o).stale :=
  h.invariant (I := fun w' => TimersNumbered w' ∧ ∀ o, (w.clock o).stale <+: (w'.clock o).stale)
    (fun _ _ _ h1 he hs => ⟨h1.1.step he hs, fun o => (h1.2 o).trans (h1.1.stale_step he hs o)⟩)
    ⟨hi, fun _ => List.prefix_rfl⟩

theorem live_ne_nil {o : Owner} (h : (w.clock o).stale ≠ []) : (w.clock o).live ≠ [] :=
  fun hn => h (by rw [Clock.stale, hn, List.filter_nil])

theorem viewAlive (hi : TimersNumbered w) {v : ViewId} (h : (w.clock (.view v)).stale ≠ []) :
    w.viewAlive v = true := by
  refine hi.viewAlive_iff.mpr ?_
  by_contra hv
  exact live_ne_nil h (hi.viewTimers v (Nat.le_of_not_lt hv))

theorem notified (hi : TimersNumbered w) {k : VcId} (h : (w.clock (.vc k)).stale ≠ []) :
    k ∈ w.notified := by
  rw [hi.toRetained.notified, hi.registered]
  by_contra hk
  exact live_ne_nil h (hi.vcTimers k hk)

end TimersNumbered

/-- **A stale timer is never stopped.** However a run goes on, the stale timers of an object stay
scheduled, in their order, and later ones come after them. So a view that has one is never
deallocated, and a controller that has one hears every background notification, and pauses its
player, for good. -/
theorem stale_for_good {accepts : String → Bool} {pre es : List Event} {w₁ w : World}
    (h₁ : Steps (app accepts) .launch pre w₁) (h : Steps (app accepts) w₁ es w) :
    (∀ o, (w₁.clock o).stale <+: (w.clock o).stale) ∧
    (∀ v, (w₁.clock (.view v)).stale ≠ [] → w.viewAlive v = true) ∧
    ∀ k, (w₁.clock (.vc k)).stale ≠ [] → k ∈ w.notified := by
  have hi₁ : TimersNumbered w₁ := h₁.invariant (fun s e s' hi he hs => hi.step he hs) .launch
  obtain ⟨hi, hp⟩ := TimersNumbered.stale_steps h hi₁
  have hne : ∀ o, (w₁.clock o).stale ≠ [] → (w.clock o).stale ≠ [] := fun o hn hnil =>
    hn (List.prefix_nil.mp (hnil ▸ hp o))
  exact ⟨hp, fun v hv => hi.viewAlive (hne _ hv), fun k hk => hi.notified (hne _ hk)⟩

/-- A tap that brings the controls back while the timer of `viewDidAppear` runs; the session ends and
every timer fires. -/
theorem stale_for_good_session : ∃ w₁ w, Steps (app fun _ => true) .launch
    [.mount, .property 0 (.url "a"), .property 0 (.play true), .delayedBlock 0, .tap 0 .fullScreen,
      .viewDidAppear, .fullTap .controlsView, .fullTap .playerView] w₁ ∧
    Steps (app fun _ => true) w₁ [.timer ⟨.vc ⟨0, 0⟩, 0⟩, .fullTap .fullScreen, .viewDismissed,
      .timer ⟨.vc ⟨0, 0⟩, 0⟩] w ∧
    (w₁.clock (.vc ⟨0, 0⟩)).stale ≠ [] ∧ (⟨0, 0⟩ : VcId) ∈ w.notified := by
  obtain ⟨w₁, hw₁, hobs⟩ := Steps.of_exec_map (app fun _ => true) .launch
    [.mount, .property 0 (.url "a"), .property 0 (.play true), .delayedBlock 0, .tap 0 .fullScreen,
      .viewDidAppear, .fullTap .controlsView, .fullTap .playerView]
    (fun w₁ => ((w₁.clock (.vc ⟨0, 0⟩)).stale, ((app fun _ => true).exec w₁
      [.timer ⟨.vc ⟨0, 0⟩, 0⟩, .fullTap .fullScreen, .viewDismissed,
        .timer ⟨.vc ⟨0, 0⟩, 0⟩]).map fun _ => ()))
    (a := ([⟨.vc ⟨0, 0⟩, 0⟩], some ())) (by decide +kernel)
  obtain ⟨hs, hr⟩ := Prod.mk.inj hobs
  obtain ⟨w, hw, _⟩ := Option.map_eq_some_iff.mp hr
  have hne : (w₁.clock (.vc ⟨0, 0⟩)).stale ≠ [] := by rw [hs]; simp
  exact ⟨w₁, w, hw₁, .of_exec hw, hne, (stale_for_good hw₁ (.of_exec hw)).2.2 _ hne⟩

end PsVideo
