import PsVideo.Step

/-!
# PsVideo.Retention

Which views and controllers there are, and that none is ever freed. `setup` and `viewDidLoad` make
the object the delegate of its own controls, a strong reference that nothing clears, and it owns the
controls; a controller also stays registered for the notification of the background.
-/

namespace PsVideo

open Machine

/-- The controller on the screen has been made. -/
def Opened (w : World) : Prop := ∀ k, w.screen.vc = some k → w.Made k

theorem Opened.step {accepts : String → Bool} {w w' : World} {e : Event} (hi : Opened w)
    (he : w.enabled e) (h : w.step accepts e = .ok w') : Opened w' := by
  cases hq : e.quiet with
  | true =>
    have q := step_quiet hq he h
    intro k hk
    rw [World.Made, q.vcCount]
    exact hi k (q.screen.symm.trans hk)
  | false =>
    cases e with
    | mount | unmount v => cases h; exact hi
    | property v p =>
      cases p with
      | url u => obtain ⟨_, rfl⟩ := url_ok h; exact hi
      | _ => cases hq
    | tap v c =>
      cases c with
      | fullScreen =>
        obtain ⟨s, layer, _, _, _, rfl⟩ := fullScreen_ok h
        intro k hk
        obtain rfl : w.nextVc v = k := Option.some.inj hk
        exact (World.made_of_count rfl _).mpr (.inr rfl)
      | _ => cases hq
    | viewDismissed =>
      obtain ⟨k, p, layer, _, _, _, rfl⟩ := viewDismissed_ok he h
      intro j hj
      cases hj
    | delayedBlock v => cases h; exact hi
    | _ => cases hq

section Runs

variable {accepts : String → Bool} {e : Event} {w w' : World}

theorem step_grows (he : w.enabled e) (h : w.step accepts e = .ok w') :
    w.nextView ≤ w'.nextView ∧ ∀ k, w.Made k → w'.Made k := by
  cases hq : e.quiet with
  | true =>
    have q := step_quiet hq he h
    exact ⟨by rw [q.nextView], fun k hk => by rw [World.Made, q.vcCount]; exact hk⟩
  | false =>
    cases e with
    | mount => cases h; exact ⟨Nat.le_succ _, fun _ => id⟩
    | unmount v => cases h; exact ⟨Nat.le_refl _, fun _ => id⟩
    | property v p =>
      cases p with
      | url u => obtain ⟨_, rfl⟩ := url_ok h; exact ⟨Nat.le_refl _, fun _ => id⟩
      | _ => cases hq
    | tap v c =>
      cases c with
      | fullScreen =>
        obtain ⟨s, layer, _, _, _, rfl⟩ := fullScreen_ok h
        exact ⟨Nat.le_refl _, fun k hk => (World.made_of_count rfl k).mpr (.inl hk)⟩
      | _ => cases hq
    | viewDismissed =>
      obtain ⟨k, p, layer, _, _, _, rfl⟩ := viewDismissed_ok he h
      exact ⟨Nat.le_refl _, fun _ => id⟩
    | delayedBlock v => cases h; exact ⟨Nat.le_refl _, fun _ => id⟩
    | _ => cases hq

end Runs

/-- Every view and controller that can still be heard of has been made. -/
structure Born (w : World) : Prop where
  mounted : ∀ v, w.mounted v = true → v < w.nextView
  delayed : ∀ v ∈ w.delayed, v < w.nextView
  delegate : ∀ k, w.Made k → (w.vcs k).delegate < w.nextView
  opened : Opened w

section Runs

variable {accepts : String → Bool} {e : Event} {w w' : World}

theorem Born.step (hi : Born w) (he : w.enabled e) (h : w.step accepts e = .ok w') : Born w' := by
  have hopen := hi.opened.step he h
  cases hq : e.quiet with
  | true =>
    have q := step_quiet hq he h
    refine ⟨fun v hv => ?_, fun v hv => ?_, fun k hk => ?_, hopen⟩
    · rw [q.nextView]; exact hi.mounted v (q.mounted ▸ hv)
    · rw [q.nextView]; exact (q.delayed v hv).elim (hi.delayed v) (hi.mounted v)
    · rw [q.nextView, q.vcDelegate]
      rw [World.Made, q.vcCount] at hk
      exact hi.delegate k hk
  | false =>
    cases e with
    | mount =>
      cases h
      refine ⟨fun v hv => ?_, fun v hv => Nat.lt_succ_of_lt (hi.delayed v hv),
        fun k hk => Nat.lt_succ_of_lt (hi.delegate k hk), hopen⟩
      by_cases hn : v = w.nextView
      · rw [hn]; exact Nat.lt_succ_self _
      · simp only [Function.update_of_ne hn] at hv
        exact Nat.lt_succ_of_lt (hi.mounted v hv)
    | unmount u =>
      cases h
      refine ⟨fun v hv => ?_, hi.delayed, hi.delegate, hopen⟩
      by_cases hn : v = u
      · subst hn; simp at hv
      · simp only [Function.update_of_ne hn] at hv
        exact hi.mounted v hv
    | property v p =>
      cases p with
      | url u => obtain ⟨_, rfl⟩ := url_ok h; exact ⟨hi.mounted, hi.delayed, hi.delegate, hopen⟩
      | _ => cases hq
    | tap v c =>
      cases c with
      | fullScreen =>
        obtain ⟨s, layer, _, _, _, rfl⟩ := fullScreen_ok h
        refine ⟨hi.mounted, hi.delayed, fun k hk => ?_, hopen⟩
        by_cases hn : k = w.nextVc v
        · subst hn
          simp only [Function.update_self]
          exact hi.mounted v he.1
        · have hk := ((World.made_of_count (w := w) (v := v) rfl k).mp hk).resolve_right hn
          simp only [Function.update_of_ne hn]
          exact hi.delegate k hk
      | _ => cases hq
    | viewDismissed =>
      obtain ⟨k, p, layer, _, _, _, rfl⟩ := viewDismissed_ok he h
      exact ⟨hi.mounted, hi.delayed, hi.delegate, hopen⟩
    | delayedBlock v =>
      cases h
      exact ⟨hi.mounted, fun u hu => hi.delayed u (List.mem_of_mem_tail hu), hi.delegate, hopen⟩
    | _ => cases hq

end Runs

theorem Env.backgroundObservers_addObserver (e : Env) (k : VcId) :
    (e.addObserver (.vc k) .didEnterBackground).backgroundObservers =
      e.backgroundObservers ++ [k] := by
  simp [backgroundObservers, addObserver, Registration.controller]

/-- Exactly the views and controllers that have been made are the delegates of their own controls,
and each of these controllers is registered once. -/
structure Retained (w : World) : Prop where
  viewControls : ∀ v, (w.views v).controlsDelegate = if v < w.nextView then some (.view v) else none
  vcControls : ∀ k, (w.vcs k).controlsDelegate = if w.Made k then some (.vc k) else none
  once : w.env.backgroundObservers.Nodup
  registered : ∀ k, k ∈ w.env.backgroundObservers ↔ w.Made k

namespace Retained

variable {accepts : String → Bool} {e : Event} {w w' : World} {v : ViewId} {k : VcId}

theorem launch : Retained .launch where
  viewControls _ := rfl
  vcControls _ := rfl
  once := List.nodup_nil
  registered _ := iff_of_false List.not_mem_nil (Nat.not_lt_zero _)

/-- Nothing of this changes. -/
theorem same (hi : Retained w) (hn : w'.nextView = w.nextView) (hc : w'.vcCount = w.vcCount)
    (hv : ∀ v, (w'.views v).controlsDelegate = (w.views v).controlsDelegate)
    (hk : ∀ k, (w'.vcs k).controlsDelegate = (w.vcs k).controlsDelegate)
    (hb : w'.env.backgroundObservers = w.env.backgroundObservers) : Retained w' where
  viewControls v := by rw [hv, hn]; exact hi.viewControls v
  vcControls k := by simp only [World.Made, hk, hc]; exact hi.vcControls k
  once := hb ▸ hi.once
  registered k := by simp only [World.Made, hb, hc]; exact hi.registered k

/-- A handler of a view. -/
theorem put (hi : Retained w) {s : Scope}
    (hd : s.self.controlsDelegate = (w.views v).controlsDelegate)
    (hb : s.env.backgroundObservers = w.env.backgroundObservers) : Retained (w.put v s) := by
  refine hi.same rfl rfl (fun u => ?_) (fun _ => rfl) hb
  by_cases hu : u = v
  · subst hu; simpa [World.put] using hd
  · simp [World.put, Function.update_of_ne hu]

/-- The new view is set up. -/
theorem mount (hi : Retained w) (h : w.step accepts .mount = .ok w') : Retained w' := by
  cases h
  refine ⟨fun v => ?_, hi.vcControls, hi.once, hi.registered⟩
  by_cases hn : v = w.nextView
  · subst hn
    simp [PsVideoView.setup]
  · simp only [Function.update_of_ne hn, hi.viewControls v]
    have hlt : v < w.nextView + 1 ↔ v < w.nextView :=
      Nat.lt_succ_iff_lt_or_eq.trans (or_iff_left hn)
    simp only [hlt]

/-- The new controller loads its view. -/
theorem fullScreen (hi : Retained w) (h : w.step accepts (.tap v .fullScreen) = .ok w') :
    Retained w' := by
  obtain ⟨s, layer, _, hf, _, hw⟩ := fullScreen_ok h
  have hmade : ∀ k, w'.Made k ↔ w.Made k ∨ k = w.nextVc v := World.made_of_count (by rw [hw])
  have hb : w'.env.backgroundObservers = w.env.backgroundObservers ++ [w.nextVc v] := by
    rw [hw, show w.env.backgroundObservers = _ from hf.backgroundObservers.symm]
    exact Env.backgroundObservers_addObserver _ _
  have hnew : w.nextVc v ∉ w.env.backgroundObservers :=
    fun hm => w.not_made_nextVc v ((hi.registered _).mp hm)
  refine ⟨fun u => ?_, fun k => ?_, ?_, fun k => ?_⟩
  · subst hw
    refine Eq.trans ?_ (hi.viewControls u)
    by_cases hu : u = v
    · subst hu; simpa [World.put, World.scope] using hf.controlsDelegate
    · simp [World.put, Function.update_of_ne hu]
  · simp only [hmade k]
    subst hw
    by_cases hk : k = w.nextVc v
    · subst hk; simp [presentedVC]
    · simp only [Function.update_of_ne hk, hk, or_false]
      exact hi.vcControls k
  · rw [hb, List.nodup_append]
    refine ⟨hi.once, List.pairwise_singleton _ _, fun k hk j hj heq => hnew ?_⟩
    rwa [heq, List.mem_singleton.mp hj] at hk
  · rw [hb, hmade, List.mem_append, List.mem_singleton, hi.registered]

theorem step (hi : Retained w) (he : w.enabled e) (h : w.step accepts e = .ok w') :
    Retained w' := by
  cases hq : e.quiet with
  | true =>
    have q := step_quiet hq he h
    exact hi.same q.nextView q.vcCount q.viewControls q.vcControls q.backgroundObservers
  | false =>
    cases e with
    | mount => exact hi.mount h
    | unmount v => cases h; exact hi.same rfl rfl (fun _ => rfl) (fun _ => rfl) rfl
    | property v p =>
      cases p with
      | url u =>
        obtain ⟨_, rfl⟩ := url_ok h
        exact hi.same rfl rfl (fun _ => rfl) (fun _ => rfl) rfl
      | _ => cases hq
    | tap v c =>
      cases c with
      | fullScreen => exact hi.fullScreen h
      | _ => cases hq
    | viewDismissed =>
      obtain ⟨k, p, layer, _, _, _, rfl⟩ := viewDismissed_ok he h
      have hf := PsVideoView.viewDismissed_frame p layer
        (w.vcs k).controlsView.videoQualityButton.title
        (w.vcs k).controlsView.settingsButton.title (w.scope (w.vcs k).delegate)
      have hin : Retained { w with screen := .inline } :=
        hi.same rfl rfl (fun _ => rfl) (fun _ => rfl) rfl
      exact hin.put hf.controlsDelegate hf.backgroundObservers
    | delayedBlock v =>
      cases h
      have hf := PsVideoView.playBlock_frame (w.scope v)
      have htail : Retained { w with delayed := w.delayed.tail } :=
        hi.same rfl rfl (fun _ => rfl) (fun _ => rfl) rfl
      exact htail.put hf.controlsDelegate hf.backgroundObservers
    | _ => cases hq

theorem reached {es : List Event} (h : Steps (app accepts) .launch es w) : Retained w :=
  h.invariant (fun _ _ _ hi he hs => hi.step he hs) launch

theorem viewAlive (hi : Retained w) (hv : v < w.nextView) : w.viewAlive v = true := by
  simp [World.viewAlive, hi.viewControls v, hv]

theorem vcAlive (hi : Retained w) (hk : w.Made k) : w.vcAlive k = true := by
  simp [World.vcAlive, hi.vcControls k, hk]

/-- The notification of the background reaches every controller ever made. -/
theorem notified (hi : Retained w) : w.notified = w.env.backgroundObservers :=
  List.filter_eq_self.mpr fun k hk => hi.vcAlive ((hi.registered k).mp hk)

end Retained

/-! ## The observers -/

/-- The object has been made. -/
def World.Holder (w : World) : Owner → Prop
  | .view v => v < w.nextView
  | .vc k => w.Made k
  | .manager => False

section Observers

variable {accepts : String → Bool} {e : Event} {w w' : World}

/-- What has been made stays made. -/
theorem World.Holder.step {o : Owner} (ho : w.Holder o) (he : w.enabled e)
    (h : w.step accepts e = .ok w') : w'.Holder o := by
  have hgrow := step_grows he h
  cases o with
  | view v => exact Nat.lt_of_lt_of_le ho hgrow.1
  | vc k => exact hgrow.2 k ho
  | manager => exact ho

theorem SilentStep.observers (h : SilentStep w w') : w'.env.observers = w.env.observers := by
  cases h with
  | refl => rfl
  | put hs => exact hs.observers
  | fullPut _ hs => exact hs.observers

/-- A new observer is one of an object that has been made. -/
theorem Born.observers_step (hi : Born w) (he : w.enabled e) (h : w.step accepts e = .ok w') :
    ∀ x ∈ w'.env.observers, x ∈ w.env.observers ∨ w.Holder x.token.owner := by
  have view : ∀ {v : ViewId} {s s' : Scope}, v < w.nextView → s.me = .view v →
      s.env.observers = w.env.observers → Frame s s' →
      ∀ x ∈ s'.env.observers, x ∈ w.env.observers ∨ w.Holder x.token.owner := by
    intro v s s' hv hm ho hf x hx
    rw [← ho]
    refine (hf.observed x hx).imp_right fun hown => ?_
    rw [hown, hm]
    exact hv
  have vc : ∀ {k : VcId} {s : FullScope}, w.Made k → FullFrame (w.fullScope k) s →
      ∀ x ∈ s.env.observers, x ∈ w.env.observers ∨ w.Holder x.token.owner := by
    intro k s hk hf x hx
    refine (hf.frame.observed x hx).imp_right fun hown => ?_
    rw [hown]
    exact hk
  cases e with
  | property v p =>
    by_cases hp : ∃ u, p = .url u
    · obtain ⟨u, rfl⟩ := hp
      obtain ⟨_, rfl⟩ := url_ok h
      exact fun _ => .inl
    · obtain rfl | ⟨s, hc, rfl⟩ := property_ok (fun u hu => hp ⟨u, hu⟩) h
      · exact fun _ => .inl
      · exact view (hi.mounted v he) rfl rfl hc.toFrame
  | tap v c =>
    by_cases hc : c = .fullScreen
    · subst hc
      obtain ⟨s, layer, _, hf, _, rfl⟩ := fullScreen_ok h
      exact view (hi.mounted v he.1) rfl rfl hf
    · obtain ⟨s, hs, rfl⟩ := tap_ok hc h
      exact view (hi.mounted v he.1) rfl rfl (PsVideoView.control_frame hs)
  | fullTap c =>
    obtain ⟨k, s, hk, _, _, hs, rfl⟩ := fullTap_ok he h
    exact vc (hi.opened k hk) (PsVideoFullViewVC.control_frame hs)
  | viewDidAppear =>
    obtain ⟨k, hk, rfl⟩ := viewDidAppear_ok he h
    exact vc (hi.opened k (congrArg Screen.vc hk)) (PsVideoFullViewVC.viewDidAppear_frame _)
  | viewDismissed =>
    obtain ⟨k, p, layer, hk, _, _, rfl⟩ := viewDismissed_ok he h
    exact view (hi.delegate k (hi.opened k hk)) rfl rfl (PsVideoView.viewDismissed_frame _ _ _ _ _)
  | delayedBlock v =>
    cases h
    exact view (hi.delayed v (List.mem_of_mem_head? he)) rfl rfl (PsVideoView.playBlock_frame _)
  | mainBlock =>
    obtain ⟨_, _, _, rfl⟩ := mainBlock_ok he h
    exact fun _ => .inl
  | background =>
    cases h
    have hsame : (w.env.registrations.foldl World.notifyBackground w).env.observers =
        w.env.observers :=
      background_rule (P := fun w' => w'.env.observers = w.env.observers) rfl fun _ _ _ _ _ ho => ho
    exact fun x hx => .inl (hsame ▸ hx)
  | timer t => cases h; exact fun x hx => .inl ((SilentStep.timer w t).observers ▸ hx)
  | tick t => exact fun x hx => .inl ((SilentStep.tick h).observers ▸ hx)
  | _ => cases h; exact fun _ => .inl

end Observers

/-- Who has been made is there, and only such objects have observers. -/
structure Present (w : World) : Prop extends Born w, Retained w where
  holder : ∀ x ∈ w.env.observers, w.Holder x.token.owner

namespace Present

variable {accepts : String → Bool} {e : Event} {w w' : World} {n : ℕ}

theorem launch : Present .launch where
  toRetained := .launch
  mounted v hv := by cases hv
  delayed v hv := by cases hv
  delegate k hk := absurd hk (Nat.not_lt_zero _)
  opened k hk := by cases hk
  holder x hx := by cases hx

theorem step (hi : Present w) (he : w.enabled e) (h : w.step accepts e = .ok w') : Present w' where
  toBorn := hi.toBorn.step he h
  toRetained := hi.toRetained.step he h
  holder x hx := (hi.observers_step he h x hx).elim (fun hx => (hi.holder x hx).step he h)
    fun hw => hw.step he h

/-- An observer that ticks finds its object. -/
theorem tick_holder (hi : Present w) {t : Handle} (he : w.enabled (.tick t)) : w.Holder t.owner := by
  obtain ⟨x, hx, ht⟩ := List.any_eq_true.mp he
  rw [← eq_of_beq ht]
  exact hi.holder x hx

theorem tick_view (hi : Present w) {v : ViewId} (he : w.enabled (.tick ⟨.view v, n⟩)) :
    w.viewAlive v = true := hi.toRetained.viewAlive (hi.tick_holder he)

theorem tick_vc (hi : Present w) {k : VcId} (he : w.enabled (.tick ⟨.vc k, n⟩)) :
    w.vcAlive k = true := hi.toRetained.vcAlive (hi.tick_holder he)

theorem reached {es : List Event} (h : Steps (app accepts) .launch es w) : Present w :=
  h.invariant (fun _ _ _ hi he hs => hi.step he hs) launch

end Present

end PsVideo
