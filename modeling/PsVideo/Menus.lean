import PsVideo.Step

/-!
# PsVideo.Menus

The two menus of the controls. A `Menu` is the five flags they are made of, and a `MenuAct` all that
one event can do to the flags of one object: `view_act` and `vc_act`. What is true of the menus in
every state reached is then a property of `Menu` that the acts keep.

* `Coherent`: the two buttons are never both selected, and the table shows the menu of the selected
  one. `videoQualityAction` breaks it, since it does not deselect the other button.
* `Sheltered`: a table that is visible belongs to a selected button, and hidden controls have no menu
  open.
-/

namespace PsVideo

open Machine

@[ext] structure Menu where
  isHidden : Bool := false
  settingsSelected : Bool := false
  qualitySelected : Bool := false
  tableIsHidden : Bool := true
  isSettingsSelected : Bool := false
  deriving DecidableEq

def PsVideoControlsView.menu (c : PsVideoControlsView) : Menu where
  isHidden := c.isHidden
  settingsSelected := c.settingsButton.isSelected
  qualitySelected := c.videoQualityButton.isSelected
  tableIsHidden := c.tableIsHidden
  isSettingsSelected := c.isSettingsSelected

/-- `keep` does nothing, `touch` is a tap on the controls, `timeout` and `fullTimeout` a firing of
the timer of either object, `fresh` the making of the object. -/
inductive MenuAct where
  | keep
  | reset
  | settings
  | videoQuality
  | unhide
  | touch
  | timeout
  | fullTimeout
  | hide (b : Bool)
  | fresh

namespace Menu

def reset (m : Menu) : Menu :=
  { m with settingsSelected := false, qualitySelected := false, tableIsHidden := true }

/-- No button is selected. -/
def idle (m : Menu) : Bool := !m.qualitySelected && !m.settingsSelected

def act (m : Menu) : MenuAct → Menu
  | .keep => m
  | .reset => m.reset
  | .settings =>
    if m.settingsSelected then { m with settingsSelected := false, tableIsHidden := true }
    else { m with
      settingsSelected := true, qualitySelected := false, tableIsHidden := false,
      isSettingsSelected := true }
  | .videoQuality =>
    if m.qualitySelected then { m with qualitySelected := false, tableIsHidden := true }
    else { m with qualitySelected := true, tableIsHidden := false, isSettingsSelected := false }
  | .unhide => { m with isHidden := false }
  | .touch => { m.reset with isHidden := true }
  | .timeout => if m.idle then { m with isHidden := true } else m
  | .fullTimeout => if m.idle then { m.reset with isHidden := true } else m
  | .hide b => { m with isHidden := b }
  | .fresh => {}

/-- The buttons are not both selected, and the table is visible iff one is, with its rows. -/
structure Coherent (m : Menu) : Prop where
  one : ¬ (m.settingsSelected = true ∧ m.qualitySelected = true)
  table : m.tableIsHidden = false ↔ (m.settingsSelected ^^ m.qualitySelected) = true
  rows : m.tableIsHidden = false → m.isSettingsSelected = m.settingsSelected

/-- A visible table belongs to a selected button, and hidden controls have no menu open. -/
structure Sheltered (m : Menu) : Prop where
  owner : m.tableIsHidden = false → m.settingsSelected = true ∨ m.qualitySelected = true
  closed : m.isHidden = true →
    m.tableIsHidden = true ∧ m.settingsSelected = false ∧ m.qualitySelected = false

variable {m : Menu}

theorem Coherent.reset (m : Menu) : Coherent m.reset :=
  ⟨by simp [Menu.reset], by simp [Menu.reset], by simp [Menu.reset]⟩

/-- Which controls are hidden does not matter to the menus. -/
theorem Coherent.hide (h : Coherent m) (b : Bool) : Coherent { m with isHidden := b } :=
  ⟨h.one, h.table, h.rows⟩

theorem Coherent.act (h : Coherent m) {a : MenuAct}
    (ha : a = .videoQuality → m.settingsSelected = false) : Coherent (m.act a) := by
  cases a with
  | keep => exact h
  | reset => exact .reset m
  | settings =>
    simp only [Menu.act]
    split
    · rename_i hs
      have hq : m.qualitySelected = false := by simpa [hs] using h.one
      exact ⟨by simp, by simp [hq], by simp⟩
    · exact ⟨by simp, by simp, by simp⟩
  | videoQuality =>
    have hs := ha rfl
    simp only [Menu.act]
    split
    · exact ⟨by simp, by simp [hs], by simp⟩
    · exact ⟨by simp [hs], by simp [hs], by simp [hs]⟩
  | unhide => exact h.hide false
  | touch => exact (Coherent.reset m).hide true
  | timeout =>
    simp only [Menu.act]
    split
    · exact h.hide true
    · exact h
  | fullTimeout =>
    simp only [Menu.act]
    split
    · exact (Coherent.reset m).hide true
    · exact h
  | hide b => exact h.hide b
  | fresh => exact ⟨by simp [Menu.act], by simp [Menu.act], by simp [Menu.act]⟩

/-- The timer hides the controls when the table is hidden. -/
theorem Coherent.idle (h : Coherent m) (ht : m.tableIsHidden = true) : m.idle = true := by
  have hx : (m.settingsSelected ^^ m.qualitySelected) = false := by
    cases hb : (m.settingsSelected ^^ m.qualitySelected) with
    | false => rfl
    | true => rw [h.table.mpr hb] at ht; cases ht
  have h1 := h.one
  unfold Menu.idle
  cases hs : m.settingsSelected <;> cases hq : m.qualitySelected <;> simp_all

theorem Sheltered.act (h : Sheltered m) {a : MenuAct} (hb : ∀ b, a ≠ .hide b)
    (ha : a = .settings ∨ a = .videoQuality → m.isHidden = false) : Sheltered (m.act a) := by
  cases a with
  | keep => exact h
  | reset => exact ⟨by simp [Menu.act, Menu.reset], by simp [Menu.act, Menu.reset]⟩
  | settings =>
    have hh := ha (.inl rfl)
    simp only [Menu.act]
    split
    · exact ⟨by simp, by simp [hh]⟩
    · exact ⟨by simp, by simp [hh]⟩
  | videoQuality =>
    have hh := ha (.inr rfl)
    simp only [Menu.act]
    split
    · exact ⟨by simp, by simp [hh]⟩
    · exact ⟨by simp, by simp [hh]⟩
  | unhide => exact ⟨h.owner, by simp [Menu.act]⟩
  | touch => exact ⟨by simp [Menu.act, Menu.reset], by simp [Menu.act, Menu.reset]⟩
  | timeout =>
    simp only [Menu.act]
    split
    · -- no button is selected, so no table is visible
      rename_i hi
      simp only [Menu.idle, Bool.and_eq_true, Bool.not_eq_true'] at hi
      have ht : m.tableIsHidden = true := by
        cases hv : m.tableIsHidden with
        | true => rfl
        | false => rcases h.owner hv with hs | hq <;> simp_all
      exact ⟨h.owner, fun _ => ⟨ht, hi.2, hi.1⟩⟩
    · exact h
  | fullTimeout =>
    simp only [Menu.act]
    split
    · exact ⟨by simp [Menu.reset], by simp [Menu.reset]⟩
    · exact h
  | hide b => exact absurd rfl (hb b)
  | fresh => exact ⟨by simp [Menu.act], by simp [Menu.act]⟩

end Menu

/-! ## The handlers -/

namespace PsVideoControlsView

theorem settingsAction_menu (c : PsVideoControlsView) :
    c.settingsAction.menu = c.menu.act .settings := by
  unfold settingsAction
  split
  · rename_i h; exact (if_pos h).symm
  · rename_i h; exact (if_neg h).symm

theorem videoQualityAction_menu (c : PsVideoControlsView) :
    c.videoQualityAction.menu = c.menu.act .videoQuality := by
  unfold videoQualityAction
  split
  · rename_i h; exact (if_pos h).symm
  · rename_i h; exact (if_neg h).symm

end PsVideoControlsView

def Scope.menu (s : Scope) : Menu := s.self.controlsView.menu

namespace Scope

variable {p : Option PlayerId} {s s' : Scope}

theorem setVideoSpeed_menu (r : String) (s : Scope) :
    (s.setVideoSpeed p r).menu = s.menu.act .reset := by
  unfold setVideoSpeed
  cases speedSetting r <;> rfl

theorem setVideoQuality_menu (q : String) (s : Scope) :
    (s.setVideoQuality p q).menu = s.menu.act .reset := rfl

theorem addTimeObserver_menu (s : Scope) : (s.addTimeObserver p).menu = s.menu := by
  cases p <;> rfl

theorem seeks_menu (h : Seeks p s s') : s'.menu = s.menu := by
  induction h with
  | refl s => rfl
  | button _ ih | slider _ _ ih | seek _ _ ih => exact ih

theorem didSelectRowAt_menu {i : Nat} (h : s.didSelectRowAt p i = .ok s') :
    s'.menu = s.menu.act .reset := by
  unfold didSelectRowAt at h
  split at h
  · split at h
    · cases h
    · rename_i rate _
      cases h
      have hm := setVideoSpeed_menu (p := p) rate (s.controls ({ · with selectedSpeed := rate }))
      exact congrArg (fun m : Menu => { m with tableIsHidden := true }) hm
  · split at h <;> cases h; rfl

theorem showTimes_menu {item : AVPlayerItem} (h : s.showTimes item = .ok s') :
    s'.menu = s.menu := by
  unfold showTimes at h
  dsimp only at h
  split at h
  · cases h
  · split at h <;> cases h; rfl

end Scope

/-- What a tap on `c` can do to the menus. -/
def MenuAct.byTap (c : Control) : MenuAct → Prop
  | .settings => c = .settings
  | .videoQuality => c = .videoQuality
  | .hide _ | .fresh => False
  | _ => True

namespace PsVideoView

variable {s s' : Scope}

theorem playAction_menu (s : Scope) :
    (playAction s).menu = s.menu ∨ (playAction s).menu = s.menu.act .reset := by
  unfold playAction
  split
  · exact .inl rfl
  · refine .inr ((Scope.setVideoSpeed_menu _ _).trans (congrArg Menu.reset ?_))
    have h : (addObservers s).menu = s.menu := by
      unfold addObservers
      split
      · exact Scope.addTimeObserver_menu s
      · rfl
    exact h

theorem timerAction_menu (s : Scope) : (timerAction s).menu = s.menu.act .timeout := by
  unfold timerAction
  split
  · rename_i h; exact (if_pos h).symm
  · rename_i h; exact (if_neg h).symm

theorem timeObserverCallback_menu {alive : Bool} (h : timeObserverCallback alive s = .ok s') :
    s'.menu = s.menu := by
  unfold timeObserverCallback at h
  split at h
  · cases h; rfl
  · split at h
    · split at h
      · refine (Scope.showTimes_menu h).trans ?_
        split <;> rfl
      · cases h
    · cases h; rfl

theorem viewDismissed_menu (p : PlayerId) (layer : Handle) (quality speed : String) (s : Scope) :
    (viewDismissed p layer quality speed s).menu = s.menu ∨
      (viewDismissed p layer quality speed s).menu = s.menu.act .reset := by
  unfold viewDismissed
  dsimp only
  split
  · right
    rw [Scope.setVideoQuality_menu, Scope.setVideoSpeed_menu]
    rfl
  · exact .inl rfl

theorem control_menu {c : Control} (h : control c s = .ok s') :
    ∃ a, MenuAct.byTap c a ∧ s'.menu = s.menu.act a := by
  cases c with
  | play =>
    cases h
    obtain hm | hm := playAction_menu s
    · exact ⟨.keep, trivial, hm⟩
    · exact ⟨.reset, trivial, hm⟩
  | stop | fullScreen => cases h; exact ⟨.keep, trivial, rfl⟩
  | forward => exact ⟨.keep, trivial, Scope.seeks_menu (.forwardAction h)⟩
  | backward => exact ⟨.keep, trivial, Scope.seeks_menu (.backwardAction h)⟩
  | slider x => exact ⟨.keep, trivial, Scope.seeks_menu (.sliderAction h)⟩
  | settings => cases h; exact ⟨.settings, rfl, PsVideoControlsView.settingsAction_menu _⟩
  | videoQuality =>
    cases h; exact ⟨.videoQuality, rfl, PsVideoControlsView.videoQualityAction_menu _⟩
  | row settings i => exact ⟨.reset, trivial, Scope.didSelectRowAt_menu h⟩
  | controlsView => cases h; exact ⟨.touch, trivial, rfl⟩
  | playerView => cases h; exact ⟨.unhide, trivial, rfl⟩

end PsVideoView

/-! ## The full-screen controller -/

namespace FullScope

def menu (s : FullScope) : Menu := s.self.controlsView.menu

/-- Of the controls and the view that brings them back exactly one is hidden. -/
def Shown (s : FullScope) : Prop :=
  s.self.viewToTapIsHidden = !s.self.controlsView.isHidden

/-- A handler does `a` to the menus, and leaves exactly one of the two hidden. -/
structure Does (a : MenuAct) (s s' : FullScope) : Prop where
  menu : s'.menu = s.menu.act a
  shown : s.Shown → s'.Shown

namespace Does

variable {a b c : MenuAct} {s s' s'' : FullScope}

theorem refl (s : FullScope) : Does .keep s s := ⟨rfl, id⟩

theorem trans (h₁ : Does a s s') (h₂ : Does b s' s'') (hc : ∀ m, (Menu.act m a).act b = m.act c) :
    Does c s s'' :=
  ⟨by rw [h₂.menu, h₁.menu, hc], fun h => h₂.shown (h₁.shown h)⟩

/-- A shared handler, which hides and shows nothing. -/
theorem on {f : Option PlayerId → Scope → Scope}
    (h : (f s.self.player s.scope).menu = s.scope.menu.act a)
    (ha : ∀ m, (Menu.act m a).isHidden = m.isHidden) : Does a s (s.on f) := by
  refine ⟨h, fun hs => hs.trans ?_⟩
  have hh : (f s.self.player s.scope).menu.isHidden = s.scope.menu.isHidden := by rw [h, ha]
  exact congrArg not hh.symm

theorem tryOn {f : Option PlayerId → Scope → Except Trap Scope}
    (hf : ∀ r, f s.self.player s.scope = .ok r → r.menu = s.scope.menu.act a)
    (ha : ∀ m, (Menu.act m a).isHidden = m.isHidden) (h : s.tryOn f = .ok s') : Does a s s' := by
  unfold FullScope.tryOn at h
  split at h
  · cases h
  · rename_i r hr
    cases h
    refine ⟨hf r hr, fun hs => hs.trans ?_⟩
    have hh : r.menu.isHidden = s.scope.menu.isHidden := by rw [hf r hr, ha]
    exact congrArg not hh.symm

end Does

end FullScope

theorem Menu.act_settings_isHidden (m : Menu) : (m.act .settings).isHidden = m.isHidden := by
  unfold Menu.act; dsimp only; split <;> rfl

theorem Menu.act_videoQuality_isHidden (m : Menu) :
    (m.act .videoQuality).isHidden = m.isHidden := by
  unfold Menu.act; dsimp only; split <;> rfl

namespace PsVideoFullViewVC

open FullScope

variable {s s' : FullScope}

theorem setVideoSpeed_does (r : String) (s : FullScope) : Does .reset s (setVideoSpeed r s) :=
  .on (Scope.setVideoSpeed_menu r _) fun _ => rfl

theorem setVideoQuality_does (q : String) (s : FullScope) : Does .reset s (setVideoQuality q s) :=
  .on (Scope.setVideoQuality_menu q _) fun _ => rfl

theorem addTimeObserver_does (s : FullScope) : Does .keep s (addTimeObserver s) :=
  .on (Scope.addTimeObserver_menu _) fun _ => rfl

/-- The end of `playAction` and of `viewDidAppear`. -/
theorem start_does {r : String} {q : FullScope → String} (h : Does .keep s s') :
    Does .reset s (setVideoQuality (q (setVideoSpeed r s')) (setVideoSpeed r s')) :=
  (h.trans (setVideoSpeed_does r s') fun _ => rfl).trans (setVideoQuality_does _ _) fun _ => rfl

theorem playAction_does (s : FullScope) :
    Does .keep s (playAction s) ∨ Does .reset s (playAction s) := by
  unfold playAction
  split
  · exact .inl ⟨rfl, id⟩
  · have h0 : Does .keep s (if s.self.timeObserver = none then addTimeObserver s else s) := by
      split
      · exact addTimeObserver_does s
      · exact .refl s
    have h1 : ∀ t : FullScope, Does .keep t ((t.on fun p => (·.call p .play)).on
        fun _ => (·.controls (·.selectPlay true))) := fun _ => ⟨rfl, id⟩
    exact .inr (start_does (q := (·.self.playerQuality)) (h0.trans (h1 _) fun _ => rfl))

theorem viewDidAppear_does (s : FullScope) :
    Does .keep s (viewDidAppear s) ∨ Does .reset s (viewDidAppear s) := by
  unfold viewDidAppear
  split
  · have h1 : Does .keep s ((s.on fun p => (·.call p .play)).on
        fun _ => (·.controls (·.selectPlay true))) := ⟨rfl, id⟩
    have h2 := h1.trans (addTimeObserver_does _) fun _ => rfl
    have h3 : ∀ t : FullScope, Does .keep t (startTimer t) := fun _ => ⟨rfl, id⟩
    exact .inr (start_does (q := (·.self.playerQuality)) (h2.trans (h3 _) fun _ => rfl))
  · exact .inl (.refl s)

theorem timerAction_does (s : FullScope) : Does .fullTimeout s (timerAction s) := by
  unfold timerAction
  split
  · rename_i h; exact ⟨(if_pos h).symm, fun _ => rfl⟩
  · rename_i h; exact ⟨(if_neg h).symm, id⟩

theorem timeObserverCallback_does (h : timeObserverCallback s = .ok s') : Does .keep s s' := by
  unfold timeObserverCallback at h
  split at h
  · cases h; exact .refl s
  · split at h
    · exact .tryOn (fun r hr => Scope.showTimes_menu hr) (fun _ => rfl) h
    · cases h; exact .refl s

theorem removeObservers_does (h : removeObservers s = .ok s') : Does .keep s s' := by
  have hd := Does.tryOn (a := .keep)
    (fun r hr => by rw [Scope.removeTimeObserver_ok hr]; rfl) (fun _ => rfl) h
  exact ⟨hd.menu, hd.shown⟩

theorem control_does {c : Control} (h : control c s = .ok s') :
    ∃ a, MenuAct.byTap c a ∧ Does a s s' := by
  cases c with
  | play =>
    cases h
    obtain hd | hd := playAction_does s
    · exact ⟨.keep, trivial, hd⟩
    · exact ⟨.reset, trivial, hd⟩
  | stop => cases h; exact ⟨.keep, trivial, rfl, id⟩
  | forward =>
    exact ⟨.keep, trivial, .tryOn (fun r hr => Scope.seeks_menu (.forwardAction hr))
      (fun _ => rfl) h⟩
  | backward =>
    exact ⟨.keep, trivial, .tryOn (fun r hr => Scope.seeks_menu (.backwardAction hr))
      (fun _ => rfl) h⟩
  | fullScreen => exact ⟨.keep, trivial, removeObservers_does h⟩
  | slider x =>
    exact ⟨.keep, trivial, .tryOn (f := fun p => (·.sliderAction p x))
      (fun r hr => Scope.seeks_menu (.sliderAction hr)) (fun _ => rfl) h⟩
  | settings =>
    cases h
    exact ⟨.settings, rfl, .on (PsVideoControlsView.settingsAction_menu _)
      Menu.act_settings_isHidden⟩
  | videoQuality =>
    cases h
    exact ⟨.videoQuality, rfl, .on (PsVideoControlsView.videoQualityAction_menu _)
      Menu.act_videoQuality_isHidden⟩
  | row settings i =>
    exact ⟨.reset, trivial, .tryOn (f := fun p => (·.didSelectRowAt p i))
      (fun r => Scope.didSelectRowAt_menu) (fun _ => rfl) h⟩
  | controlsView => cases h; exact ⟨.touch, trivial, rfl, fun _ => rfl⟩
  | playerView => cases h; exact ⟨.unhide, trivial, rfl, fun _ => rfl⟩

end PsVideoFullViewVC

/-! ## The world -/

/-- What `e` can do to the menus of view `v`. -/
def MenuAct.byView (e : Event) (v : ViewId) : MenuAct → Prop
  | .settings => e = .tap v .settings
  | .videoQuality => e = .tap v .videoQuality
  | .hide _ => ∃ b, e = .property v (.controls b)
  | .fresh => e = .mount
  | _ => True

/-- What `e` can do to those of controller `k`. -/
def MenuAct.byVc (w : World) (e : Event) (k : VcId) : MenuAct → Prop
  | .settings => w.screen.vc = some k ∧ e = .fullTap .settings
  | .videoQuality => w.screen.vc = some k ∧ e = .fullTap .videoQuality
  | .hide _ | .fresh => False
  | _ => True

theorem MenuAct.byTap.view {c : Control} {a : MenuAct} (h : a.byTap c) (v : ViewId) :
    a.byView (.tap v c) v := by
  cases a with
  | settings | videoQuality => rw [show c = _ from h]; rfl
  | hide b | fresh => cases h
  | _ => trivial

theorem MenuAct.byTap.vc {c : Control} {a : MenuAct} (h : a.byTap c) {w : World} {k : VcId}
    (hk : w.screen.vc = some k) : a.byVc w (.fullTap c) k := by
  cases a with
  | settings | videoQuality => rw [show c = _ from h]; exact ⟨hk, rfl⟩
  | hide b | fresh => cases h
  | _ => trivial

/-- One act, if any, for each view. -/
def ViewActs (e : Event) (w w' : World) : Prop :=
  ∀ v, ∃ a : MenuAct, a.byView e v ∧
    (w'.views v).controlsView.menu = (w.views v).controlsView.menu.act a

/-- One act, if any, for each controller that there was. -/
def VcActs (e : Event) (w w' : World) : Prop :=
  ∀ k, (∃ a : MenuAct, a.byVc w e k ∧ (w.fullScope k).Does a (w'.fullScope k)) ∧
      (w'.Made k ↔ w.Made k) ∨
    ∃ v, w'.vcs k = presentedVC (w.scope v) k v

section Acts

variable {e : Event} {w w' : World}

theorem ViewActs.refl (h : w'.views = w.views) : ViewActs e w w' :=
  fun v => ⟨.keep, trivial, by rw [h]; rfl⟩

theorem ViewActs.put {v : ViewId} {s : Scope} (h : ∃ a : MenuAct, a.byView e v ∧
    s.menu = (w.scope v).menu.act a) : ViewActs e w (w.put v s) := by
  intro u
  by_cases hu : u = v
  · subst hu
    obtain ⟨a, ha, hm⟩ := h
    exact ⟨a, ha, by simp only [World.put, Function.update_self]; exact hm⟩
  · exact ⟨.keep, trivial, by simp [World.put, Function.update_of_ne hu, Menu.act]⟩

theorem VcActs.refl (hv : w'.vcs = w.vcs) (hn : w'.vcCount = w.vcCount) : VcActs e w w' :=
  fun k => .inl ⟨⟨.keep, trivial, by simp [World.fullScope, hv, FullScope.menu, Menu.act],
    by simp [World.fullScope, hv, FullScope.Shown]⟩, by rw [World.Made, World.Made, hn]⟩

theorem VcActs.fullPut {k : VcId} {s : FullScope} (h : ∃ a : MenuAct, a.byVc w e k ∧
    (w.fullScope k).Does a s) : VcActs e w (w.fullPut k s) := by
  intro j
  refine .inl ⟨?_, .rfl⟩
  by_cases hj : j = k
  · subst hj
    obtain ⟨a, ha, hm, hs⟩ := h
    exact ⟨a, ha, by simpa [World.fullPut, World.fullScope, FullScope.menu] using hm,
      by simpa [World.fullPut, World.fullScope, FullScope.Shown] using hs⟩
  · exact ⟨.keep, trivial, by simp [World.fullPut, World.fullScope, FullScope.menu, Menu.act,
      Function.update_of_ne hj], by simp [World.fullPut, World.fullScope, FullScope.Shown,
      Function.update_of_ne hj]⟩

/-- The making of a view. -/
theorem ViewActs.mount (w : World) (accepts : String → Bool)
    (h : w.step accepts .mount = .ok w') : ViewActs .mount w w' := by
  cases h
  intro u
  by_cases hu : u = w.nextView
  · subst hu
    exact ⟨.fresh, rfl, by simp [PsVideoView.init, PsVideoControlsView.menu, Menu.act]⟩
  · exact ⟨.keep, trivial, by simp [Function.update_of_ne hu, Menu.act]⟩

/-- A pause in the background. -/
theorem background_acts (w : World) :
    ViewActs .background w (w.env.registrations.foldl World.notifyBackground w) ∧
      VcActs .background w (w.env.registrations.foldl World.notifyBackground w) := by
  let P : World → Prop := fun w' => w'.views = w.views ∧ w'.vcCount = w.vcCount ∧
    ∀ k, (w.fullScope k).Does .keep (w'.fullScope k)
  obtain ⟨hv, hn, hk⟩ := background_rule (P := P) (w := w) ⟨rfl, rfl, fun _ => .refl _⟩ (by
    rintro w' k _ _ _ ⟨hv, hn, hk⟩
    refine ⟨hv, hn, fun j => (hk j).trans ?_ fun _ => rfl⟩
    by_cases hj : j = k
    · subst hj
      rw [World.fullScope_fullPut rfl]
      exact ⟨rfl, id⟩
    · constructor
      · simp [World.fullPut, World.fullScope, FullScope.menu, Menu.act, Function.update_of_ne hj]
      · simp [World.fullPut, World.fullScope, FullScope.Shown, Function.update_of_ne hj])
  exact ⟨.refl hv, fun k => .inl ⟨⟨.keep, trivial, hk k⟩, by rw [World.Made, World.Made, hn]⟩⟩

theorem tick_acts {t : Handle} (h : w.tick t = .ok w') : ViewActs e w w' ∧ VcActs e w w' := by
  cases tick_ok h with
  | refl => exact ⟨.refl rfl, .refl rfl rfl⟩
  | view hr =>
    exact ⟨.put ⟨.keep, trivial, PsVideoView.timeObserverCallback_menu hr⟩, .refl rfl rfl⟩
  | vc _ hr =>
    exact ⟨.refl rfl, .fullPut ⟨.keep, trivial, PsVideoFullViewVC.timeObserverCallback_does hr⟩⟩

/-- What one event does to the menus. -/
theorem step_acts {accepts : String → Bool} (he : w.enabled e) (h : w.step accepts e = .ok w') :
    ViewActs e w w' ∧ VcActs e w w' := by
  cases e with
  | mount => exact ⟨.mount w accepts h, by cases h; exact .refl rfl rfl⟩
  | unmount v => cases h; exact ⟨.refl rfl, .refl rfl rfl⟩
  | property v p =>
    cases p with
    | url u => obtain ⟨_, rfl⟩ := url_ok h; exact ⟨.refl rfl, .refl rfl rfl⟩
    | paused b | play b =>
      cases b <;> cases h <;>
        first
          | exact ⟨.put ⟨.keep, trivial, rfl⟩, .refl rfl rfl⟩
          | exact ⟨.refl rfl, .refl rfl rfl⟩
    | stop b => cases h; exact ⟨.put ⟨.keep, trivial, rfl⟩, .refl rfl rfl⟩
    | controls b => cases h; exact ⟨.put ⟨.hide (!b), ⟨b, rfl⟩, rfl⟩, .refl rfl rfl⟩
    | maxBitRate d => cases h; exact ⟨.put ⟨.keep, trivial, rfl⟩, .refl rfl rfl⟩
  | tap v c =>
    by_cases hc : c = .fullScreen
    · subst hc
      obtain ⟨s, layer, hs, _, _, rfl⟩ := fullScreen_ok h
      refine ⟨?_, fun k => ?_⟩
      · have hm : s.menu = (w.scope v).menu := by rw [Scope.removeTimeObserver_ok hs]; rfl
        exact ViewActs.put (v := v) (s := { s with self := { s.self with timeObserver := none } })
          ⟨.keep, trivial, hm⟩
      · by_cases hk : k = w.nextVc v
        · subst hk
          exact .inr ⟨v, by simp⟩
        · refine .inl ⟨⟨.keep, trivial, ?_, ?_⟩, ?_⟩
          · simp [World.fullScope, FullScope.menu, Menu.act, Function.update_of_ne hk, World.put]
          · simp [World.fullScope, FullScope.Shown, Function.update_of_ne hk, World.put]
          · rw [World.made_of_count (w := w) (v := v) rfl]
            simp [hk]
    · obtain ⟨s, hs, rfl⟩ := tap_ok hc h
      obtain ⟨a, ha, hm⟩ := PsVideoView.control_menu hs
      exact ⟨.put ⟨a, ha.view v, hm⟩, .refl rfl rfl⟩
  | fullTap c =>
    obtain ⟨k, s, hk, _, _, hs, rfl⟩ := fullTap_ok he h
    obtain ⟨a, ha, hd⟩ := PsVideoFullViewVC.control_does hs
    exact ⟨.refl rfl, VcActs.fullPut ⟨a, ha.vc hk, hd⟩⟩
  | viewDidAppear =>
    obtain ⟨k, _, rfl⟩ := viewDidAppear_ok he h
    refine ⟨.refl rfl, VcActs.fullPut (k := k) ?_⟩
    obtain hd | hd := PsVideoFullViewVC.viewDidAppear_does (w.fullScope k)
    · exact ⟨.keep, trivial, hd⟩
    · exact ⟨.reset, trivial, hd⟩
  | viewDismissed =>
    obtain ⟨k, p, layer, _, _, _, rfl⟩ := viewDismissed_ok he h
    refine ⟨ViewActs.put (w := w) ?_, .refl rfl rfl⟩
    obtain hm | hm := PsVideoView.viewDismissed_menu p layer _ _ (w.scope (w.vcs k).delegate)
    · exact ⟨.keep, trivial, hm⟩
    · exact ⟨.reset, trivial, hm⟩
  | delayedBlock v =>
    cases h
    refine ⟨ViewActs.put (w := w) ?_, .refl rfl rfl⟩
    obtain hm | hm := PsVideoView.playAction_menu (PsVideoView.initVideoPlayer (w.scope v))
    · exact ⟨.keep, trivial, hm⟩
    · exact ⟨.reset, trivial, hm⟩
  | playAnotherVideo url => cases h; exact ⟨.refl rfl, .refl rfl rfl⟩
  | mainBlock =>
    obtain ⟨_, _, _, rfl⟩ := mainBlock_ok he h
    exact ⟨.refl rfl, .refl rfl rfl⟩
  | background => cases h; exact background_acts w
  | timer t =>
    cases h
    unfold World.timer
    split
    · exact ⟨.put ⟨.timeout, trivial, PsVideoView.timerAction_menu _⟩, .refl rfl rfl⟩
    · exact ⟨.refl rfl, .fullPut ⟨.fullTimeout, trivial, PsVideoFullViewVC.timerAction_does _⟩⟩
    · exact ⟨.refl rfl, .refl rfl rfl⟩
  | tick t => exact tick_acts h
  | itemProgress p status duration time => cases h; exact ⟨.refl rfl, .refl rfl rfl⟩
  | itemEnd p | playbackError p => cases h; exact ⟨.refl rfl, .refl rfl rfl⟩

end Acts

end PsVideo
