import PsVideo.Menus

/-!
# PsVideo.MenuRuns

The menus in every state that a run reaches. As long as the quality button is tapped only while the
settings button is not selected, they are coherent. And as long as the controls are tapped only while
they are visible, as on the screen they can be, hidden controls have no menu open; and on a
full-screen controller the view that is tapped to bring them back is there exactly while they are
hidden.
-/

namespace PsVideo

open Machine

/-! ## Coherence -/

/-- The quality button is tapped only while the settings button is not selected. -/
def MenuSafe (w : World) : Event → Bool
  | .tap v .videoQuality => !(w.views v).controlsView.settingsButton.isSelected
  | .fullTap .videoQuality =>
    ∀ k ∈ w.screen.vc, (w.vcs k).controlsView.settingsButton.isSelected = false
  | _ => true

def MenuRun (w : World) (e : Event) : Prop := MenuSafe w e = true

instance (w : World) (e : Event) : Decidable (MenuRun w e) := inferInstanceAs (Decidable (_ = _))

/-- The menus are coherent, so that every row that can be tapped is there, and the next firing of the
timer hides the controls unless the table is visible. -/
structure PsVideoView.MenusWork (s : Scope) : Prop where
  coherent : s.self.controlsView.menu.Coherent
  rows : ∀ settings i, s.self.controlsView.canTap (.row settings i) →
    ∃ s', PsVideoView.control (.row settings i) s = .ok s'
  hides : s.self.controlsView.tableIsHidden = true →
    (PsVideoView.timerAction s).self.controlsView.isHidden = true

structure PsVideoFullViewVC.MenusWork (s : FullScope) : Prop where
  coherent : s.self.controlsView.menu.Coherent
  rows : ∀ settings i, s.self.controlsView.canTap (.row settings i) →
    ∃ s', PsVideoFullViewVC.control (.row settings i) s = .ok s'
  hides : s.self.controlsView.tableIsHidden = true →
    (PsVideoFullViewVC.timerAction s).self.controlsView.isHidden = true

/-- A row on display is in the array that it indexes. -/
theorem Scope.didSelectRowAt_total {s : Scope} {settings : Bool} {i : Nat} (p : Option PlayerId)
    (h : s.self.controlsView.canTap (.row settings i)) : ∃ s', s.didSelectRowAt p i = .ok s' := by
  obtain ⟨_, _, hi⟩ := h
  unfold Scope.didSelectRowAt
  unfold PsVideoControlsView.rows at hi
  split
  · rename_i hs
    rw [if_pos hs] at hi
    rw [List.getElem?_eq_getElem hi]
    exact ⟨_, rfl⟩
  · rename_i hs
    rw [if_neg hs] at hi
    rw [List.getElem?_eq_getElem hi]
    exact ⟨_, rfl⟩

theorem PsVideoView.MenusWork.of_coherent {s : Scope} (h : s.self.controlsView.menu.Coherent) :
    MenusWork s where
  coherent := h
  rows _ _ hc := Scope.didSelectRowAt_total _ hc
  hides ht := by
    have hm := congrArg Menu.isHidden (timerAction_menu s)
    exact hm.trans (congrArg Menu.isHidden (if_pos (h.idle ht)))

theorem PsVideoFullViewVC.MenusWork.of_coherent {s : FullScope}
    (h : s.self.controlsView.menu.Coherent) : MenusWork s where
  coherent := h
  rows settings i hc := by
    obtain ⟨r, hr⟩ := Scope.didSelectRowAt_total (s := s.scope) s.self.player hc
    exact ⟨s.put r, by simp only [control, FullScope.tryOn, hr]⟩
  hides ht := by
    have hm := congrArg Menu.isHidden (timerAction_does s).menu
    exact hm.trans (congrArg Menu.isHidden (if_pos (h.idle ht)))

def MenusCoherent (w : World) : Prop :=
  (∀ v, (w.views v).controlsView.menu.Coherent) ∧ ∀ k, (w.vcs k).controlsView.menu.Coherent

theorem coherent_fresh : Menu.Coherent {} := ⟨by simp, by simp, by simp⟩

theorem MenusCoherent.step {accepts : String → Bool} {w w' : World} {e : Event}
    (hi : MenusCoherent w) (he : w.enabled e) (hg : MenuRun w e)
    (h : w.step accepts e = .ok w') : MenusCoherent w' := by
  obtain ⟨hv, hk⟩ := step_acts he h
  refine ⟨fun v => ?_, fun k => ?_⟩
  · obtain ⟨a, ha, hm⟩ := hv v
    rw [hm]
    refine (hi.1 v).act ?_
    rintro rfl
    rw [show e = .tap v .videoQuality from ha] at hg
    exact (Bool.not_eq_true' _).mp hg
  · obtain ⟨⟨a, ha, hd⟩, _⟩ | ⟨v, hp⟩ := hk k
    · have hm : (w'.vcs k).controlsView.menu = (w.vcs k).controlsView.menu.act a := hd.menu
      rw [hm]
      refine (hi.2 k).act ?_
      rintro rfl
      rw [ha.2] at hg
      exact of_decide_eq_true hg k ha.1
    · rw [hp]
      exact coherent_fresh

/-- **The menus are coherent** in every run that meets the condition, in every view and in every
full-screen controller. -/
theorem menus_coherent {accepts : String → Bool} {es : List Event} {w : World}
    (h : Steps ((app accepts).restrict MenuRun) .launch es w) :
    (∀ v, PsVideoView.MenusWork (w.scope v)) ∧
      ∀ k, PsVideoFullViewVC.MenusWork (w.fullScope k) := by
  have hi := h.invariant (I := MenusCoherent) (fun s e s' hi he hs => hi.step he.1 he.2 hs)
    ⟨fun _ => coherent_fresh, fun _ => coherent_fresh⟩
  exact ⟨fun v => .of_coherent (hi.1 v), fun k => .of_coherent (hi.2 k)⟩

theorem menus_coherent_session : ∃ w, Steps ((app fun _ => true).restrict MenuRun) .launch
    [.mount, .property 0 (.url "a"), .tap 0 .videoQuality, .tap 0 .settings, .tap 0 (.row true 4),
      .tap 0 .playerView, .tap 0 .videoQuality, .tap 0 (.row false 2), .timer ⟨.view 0, 0⟩] w ∧
    (∀ v, PsVideoView.MenusWork (w.scope v)) ∧
      ∀ k, PsVideoFullViewVC.MenusWork (w.fullScope k) := by
  obtain ⟨w, hw, _⟩ := Steps.of_exec_map ((app fun _ => true).restrict MenuRun) .launch
    [.mount, .property 0 (.url "a"), .tap 0 .videoQuality, .tap 0 .settings, .tap 0 (.row true 4),
      .tap 0 .playerView, .tap 0 .videoQuality, .tap 0 (.row false 2), .timer ⟨.view 0, 0⟩]
    (fun _ => ()) (a := ()) (by decide +kernel)
  exact ⟨w, hw, menus_coherent hw⟩

/-- Settings, then quality: both buttons are selected. -/
theorem menus_not_coherent : ∃ w, Steps (app fun _ => true) .launch
    [.mount, .tap 0 .settings, .tap 0 .videoQuality] w ∧
    ¬ PsVideoView.MenusWork (w.scope 0) := by
  obtain ⟨w, hw, hm⟩ := Steps.of_exec_map (app fun _ => true) .launch
    [.mount, .tap 0 .settings, .tap 0 .videoQuality]
    (fun w => ((w.views 0).controlsView.settingsButton.isSelected,
      (w.views 0).controlsView.videoQualityButton.isSelected)) (a := (true, true))
    (by decide +kernel)
  exact ⟨w, hw, fun h => h.coherent.one (Prod.mk.inj hm)⟩

/-! ## Hidden controls -/

/-- A control inside the controls view is tapped only while the controls view is visible. -/
def TapShown (w : World) : Event → Bool
  | .tap v c => c ≠ .playerView → (w.views v).controlsView.isHidden = false
  | .fullTap c =>
    c ≠ .playerView → ∀ k ∈ w.screen.vc, (w.vcs k).controlsView.isHidden = false
  | _ => true

def ShownRun (w : World) (e : Event) : Prop := TapShown w e = true

instance (w : World) (e : Event) : Decidable (ShownRun w e) := inferInstanceAs (Decidable (_ = _))

/-- The controls of a controller can be brought back, and if hidden have no menu open; those of a
view whose `controls` property has not been set so far have none open if hidden. -/
def MenusSheltered (es : List Event) (w : World) : Prop :=
  (∀ k, w.Made k → (w.fullScope k).Shown ∧ (w.vcs k).controlsView.menu.Sheltered) ∧
    ∀ v, (∀ b, .property v (.controls b) ∉ es) → (w.views v).controlsView.menu.Sheltered

theorem sheltered_fresh : Menu.Sheltered {} := ⟨by simp, by simp⟩

theorem MenusSheltered.step {accepts : String → Bool} {es : List Event} {w w' : World} {e : Event}
    (hi : MenusSheltered es w) (he : w.enabled e) (hg : ShownRun w e)
    (h : w.step accepts e = .ok w') : MenusSheltered (es ++ [e]) w' := by
  obtain ⟨hv, hk⟩ := step_acts he h
  refine ⟨fun k hm => ?_, fun v hb => ?_⟩
  · obtain ⟨⟨a, ha, hd⟩, hmade⟩ | ⟨v, hp⟩ := hk k
    · obtain ⟨hs, hm⟩ := hi.1 k (hmade.mp hm)
      refine ⟨hd.shown hs, ?_⟩
      have hma : (w'.vcs k).controlsView.menu = (w.vcs k).controlsView.menu.act a := hd.menu
      rw [hma]
      refine hm.act (by rintro b rfl; exact ha) ?_
      rintro (rfl | rfl)
      · rw [ha.2] at hg
        exact of_decide_eq_true hg (by simp) k ha.1
      · rw [ha.2] at hg
        exact of_decide_eq_true hg (by simp) k ha.1
    · have hs : (w'.fullScope k).self = presentedVC (w.scope v) k v := hp
      refine ⟨?_, by rw [hp]; exact sheltered_fresh⟩
      unfold FullScope.Shown
      rw [hs]
      rfl
  · obtain ⟨a, ha, hm⟩ := hv v
    rw [hm]
    have hi := hi.2 v fun b hmem => hb b (List.mem_append_left _ hmem)
    refine hi.act ?_ ?_
    · rintro b rfl
      obtain ⟨b', hb'⟩ := ha
      exact hb b' (by simp [hb'])
    · rintro (rfl | rfl)
      · rw [show e = .tap v .settings from ha] at hg
        exact of_decide_eq_true hg (by simp)
      · rw [show e = .tap v .videoQuality from ha] at hg
        exact of_decide_eq_true hg (by simp)

/-- **Controls are never hidden with a menu open.** If the controls are hidden, so is the table, and
no button is selected: on a full-screen controller, where moreover exactly one of the controls and
the view that is tapped to bring them back is hidden, and on a view whose `controls` property the run
does not set. -/
theorem hidden_closed {accepts : String → Bool} {es : List Event} {w : World}
    (h : Steps ((app accepts).restrict ShownRun) .launch es w) :
    (∀ k, w.Made k →
      ((w.vcs k).controlsView.isHidden = true ↔ (w.vcs k).viewToTapIsHidden = false) ∧
      ((w.vcs k).controlsView.isHidden = true → (w.vcs k).controlsView.tableIsHidden = true ∧
        (w.vcs k).controlsView.settingsButton.isSelected = false ∧
        (w.vcs k).controlsView.videoQualityButton.isSelected = false)) ∧
    ∀ v, (∀ b, .property v (.controls b) ∉ es) →
      (w.views v).controlsView.isHidden = true → (w.views v).controlsView.tableIsHidden = true ∧
        (w.views v).controlsView.settingsButton.isSelected = false ∧
        (w.views v).controlsView.videoQualityButton.isSelected = false := by
  have hi := h.traced (I := MenusSheltered) (fun es s e s' hi he hs => hi.step he.1 he.2 hs) []
    ⟨fun k hk => by simp [World.Made, World.launch] at hk, fun _ _ => sheltered_fresh⟩
  refine ⟨fun k hk => ?_, fun v hb => (hi.2 v hb).closed⟩
  obtain ⟨hs, hm⟩ := hi.1 k hk
  have hs : (w.vcs k).viewToTapIsHidden = !(w.vcs k).controlsView.isHidden := hs
  refine ⟨?_, hm.closed⟩
  rw [hs]
  simp

/-- A timer hides the controls of the controller, and the quality menu keeps those of the view. -/
theorem hidden_closed_session : ∃ w, Steps ((app fun _ => true).restrict ShownRun) .launch
    [.mount, .property 0 (.url "a"), .property 0 (.play true), .delayedBlock 0, .tap 0 .settings,
      .tap 0 .videoQuality, .tap 0 .fullScreen, .viewDidAppear, .timer ⟨.vc ⟨0, 0⟩, 0⟩] w ∧
    (w.vcs ⟨0, 0⟩).controlsView.tableIsHidden = true := by
  obtain ⟨w, hw, hobs⟩ := Steps.of_exec_map ((app fun _ => true).restrict ShownRun) .launch
    [.mount, .property 0 (.url "a"), .property 0 (.play true), .delayedBlock 0, .tap 0 .settings,
      .tap 0 .videoQuality, .tap 0 .fullScreen, .viewDidAppear, .timer ⟨.vc ⟨0, 0⟩, 0⟩]
    (fun w => (w.vcCount 0, (w.vcs ⟨0, 0⟩).controlsView.isHidden)) (a := (1, true))
    (by decide +kernel)
  obtain ⟨hn, hh⟩ := Prod.mk.inj hobs
  have hmade : w.Made ⟨0, 0⟩ := by simp [World.Made, hn]
  exact ⟨w, hw, (((hidden_closed hw).1 _ hmade).2 hh).1⟩

end PsVideo
