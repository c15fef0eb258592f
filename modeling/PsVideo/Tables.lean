import PsVideo.Step

/-!
# PsVideo.Tables

The cells of the table that serves both menus, and the texts and rates that choosing among them can
lead to. `Picks` is what every handler keeps: the texts stay among those the tables know, the rates
among those `setVideoSpeed` assigns, and a table that stays visible goes on showing the same.
-/

namespace PsVideo

/-- A row of the table: its text, and whether it has the background of the current choice. -/
structure Cell where
  text : String
  highlighted : Bool
  deriving DecidableEq

namespace PsVideoControlsView

/-- `cellForRowAt`, for the row with this text. -/
def cellFor (c : PsVideoControlsView) (text : String) : Cell where
  text := text
  highlighted := if c.isSettingsSelected then c.selectedSpeed = text else c.selectedQuality = text

/-- All rows, as they are after `reloadData`. -/
def cells (c : PsVideoControlsView) : List Cell := c.rows.map c.cellFor

end PsVideoControlsView

/-- What a speed can be called: the rows of the table, and the title that the first one sets. -/
def speeds : List String := "0.5x" :: videoSpeedArray

/-- What a player can be set to. -/
def rates : List ℚ := [0, 1 / 2, 3 / 4, 1, 5 / 4, 3 / 2, 7 / 4, 2]

/-- The setting of a known speed is a known rate and a known title. -/
theorem speedSetting_known {s t : String} {r : ℚ} (hs : s ∈ speeds)
    (h : speedSetting s = some (r, t)) : r ∈ rates ∧ t ∈ speeds := by
  simp only [speeds, videoSpeedArray, List.mem_cons, List.not_mem_nil, or_false] at hs
  rcases hs with rfl | rfl | rfl | rfl | rfl | rfl | rfl | rfl
  · cases h
  all_goals
    cases h
    constructor <;> simp [rates, speeds, videoSpeedArray]

theorem qualitySetting_known {q : String} (h : q ∈ videoQualityArray) :
    (qualitySetting q).2 ∈ videoQualityArray := by
  simp only [videoQualityArray, List.mem_cons, List.not_mem_nil, or_false] at h
  rcases h with rfl | rfl | rfl | rfl | rfl <;> simp [qualitySetting, videoQualityArray]

/-- The texts of an object that come from the tables. -/
structure Controller.Tabled (c : Controller) : Prop where
  playerSpeed : c.playerSpeed ∈ speeds
  playerQuality : c.playerQuality ∈ videoQualityArray
  selectedSpeed : c.controlsView.selectedSpeed ∈ speeds
  selectedQuality : c.controlsView.selectedQuality ∈ videoQualityArray
  title : c.controlsView.settingsButton.title ∈ speeds

/-- No player is at another rate. -/
def Env.Rated (e : Env) : Prop := ∀ p, (e.players p).rate ∈ rates

theorem Env.Rated.of_players {e e' : Env} (h : e.Rated) (hp : e'.players = e.players) :
    e'.Rated := fun q => by rw [hp]; exact h q

/-- What moves players in a way that keeps the rates known. -/
theorem Env.Rated.moved {e e' : Env} (h : e.Rated) {g : AVPlayer → AVPlayer} (hm : e.Moved g e')
    (hg : ∀ a : AVPlayer, a.rate ∈ rates → (g a).rate ∈ rates) : e'.Rated := by
  intro q
  obtain hq | hq := hm.players q
  · rw [hq]; exact h q
  · rw [hq]; exact hg _ (h q)

/-- A command that sets a known rate, or none. -/
theorem Env.Rated.call {e : Env} (h : e.Rated) (op : PlayerOp)
    (ho : ∀ a : AVPlayer, a.rate ∈ rates → (op.apply a).rate ∈ rates) (o : Owner)
    (p : Option PlayerId) : (e.call o p op).Rated := h.moved (e.moved_call o p op) ho

theorem Env.Rated.playNextVideo {e : Env} (h : e.Rated) (url : String) :
    (PsVideoView.playNextVideo url e).Rated :=
  ((h.call _ (fun _ => id) _ _).call _ (fun _ => id) _ _).call _
    (fun _ _ => by simp [PlayerOp.apply, rates]) _ _

/-- The title of the quality button. A view gets any text there by `maxBitRate`, a controller
does not. -/
def Controller.QualityTitled (c : Controller) : Prop :=
  c.controlsView.videoQualityButton.title ∈ videoQualityArray

/-- The parts of the controls that the tables have to do with. -/
structure Choice where
  selectedSpeed : String
  selectedQuality : String
  settingsTitle : String
  qualityTitle : String
  isSettingsSelected : Bool
  tableIsHidden : Bool

def PsVideoControlsView.choice (c : PsVideoControlsView) : Choice where
  selectedSpeed := c.selectedSpeed
  selectedQuality := c.selectedQuality
  settingsTitle := c.settingsButton.title
  qualityTitle := c.videoQualityButton.title
  isSettingsSelected := c.isSettingsSelected
  tableIsHidden := c.tableIsHidden

theorem cells_of_choice {c c' : PsVideoControlsView} (h : c'.choice = c.choice) :
    c'.cells = c.cells := by
  simp only [PsVideoControlsView.choice, Choice.mk.injEq] at h
  obtain ⟨h1, h2, _, _, h5, _⟩ := h
  have hcell : c'.cellFor = c.cellFor := by
    funext t
    simp only [PsVideoControlsView.cellFor, h1, h2, h5]
  simp only [PsVideoControlsView.cells, PsVideoControlsView.rows, hcell, h5]

/-- What is chosen stays among what the tables offer, and the rates with it. -/
structure Known (s s' : Scope) : Prop where
  tabled : s.self.Tabled → s'.self.Tabled
  rated : s.self.Tabled → s.env.Rated → s'.env.Rated
  title : s.self.Tabled → s.self.QualityTitled → s'.self.QualityTitled

theorem Known.trans {s s' s'' : Scope} (h₁ : Known s s') (h₂ : Known s' s'') : Known s s'' where
  tabled ht := h₂.tabled (h₁.tabled ht)
  rated ht he := h₂.rated (h₁.tabled ht) (h₁.rated ht he)
  title ht hq := h₂.title (h₁.tabled ht) (h₁.title ht hq)

/-- A table that is visible afterwards goes on showing what it has shown. -/
def TableKept (c c' : PsVideoControlsView) : Prop :=
  c'.tableIsHidden = true ∨ c'.cells = c.cells ∧ c'.tableIsHidden = c.tableIsHidden

structure Picks (s s' : Scope) : Prop extends Known s s' where
  table : TableKept s.self.controlsView s'.self.controlsView

namespace Picks

variable {p : Option PlayerId} {s s' s'' : Scope}

theorem trans (h₁ : Picks s s') (h₂ : Picks s' s'') : Picks s s'' where
  toKnown := h₁.toKnown.trans h₂.toKnown
  table := by
    obtain h | ⟨hc, hh⟩ := h₂.table
    · exact .inl h
    · obtain h | ⟨hc', hh'⟩ := h₁.table
      · exact .inl (hh.trans h)
      · exact .inr ⟨hc.trans hc', hh.trans hh'⟩

/-- The choices stay as they are. -/
theorem same (hc : s'.self.controlsView.choice = s.self.controlsView.choice)
    (hs : s'.self.playerSpeed = s.self.playerSpeed)
    (hq : s'.self.playerQuality = s.self.playerQuality)
    (hr : s.env.Rated → s'.env.Rated) : Picks s s' := by
  have hcells := cells_of_choice hc
  simp only [PsVideoControlsView.choice, Choice.mk.injEq] at hc
  obtain ⟨h1, h2, h3, h4, _, h6⟩ := hc
  refine ⟨⟨fun ht => ?_, fun _ => hr, fun _ hq => ?_⟩, .inr ⟨hcells, h6⟩⟩
  · exact ⟨hs ▸ ht.playerSpeed, hq ▸ ht.playerQuality, h1 ▸ ht.selectedSpeed,
      h2 ▸ ht.selectedQuality, h3 ▸ ht.title⟩
  · unfold Controller.QualityTitled
    rw [h4]; exact hq

theorem refl (s : Scope) : Picks s s := same rfl rfl rfl id

/-- An update of other parts of the controls. -/
theorem controls (s : Scope) (f : PsVideoControlsView → PsVideoControlsView)
    (h : ∀ c, (f c).choice = c.choice) : Picks s (s.controls f) := same (h _) rfl rfl id

theorem call (s : Scope) (op : PlayerOp) (h : ∀ a : AVPlayer, a.rate ∈ rates →
    (op.apply a).rate ∈ rates) : Picks s (s.call p op) :=
  same rfl rfl rfl fun he => he.call op h _ _

theorem selectPlay (s : Scope) (b : Bool) : Picks s (s.controls (·.selectPlay b)) :=
  controls s (·.selectPlay b) fun _ => rfl

theorem pause (s : Scope) : Picks s (s.call p .pause) :=
  call s .pause fun _ _ => by simp [PlayerOp.apply, rates]

theorem pauseAction (s : Scope) : Picks s (s.pauseAction p) := (pause s).trans (selectPlay _ false)

theorem stopAction (s : Scope) : Picks s (s.stopAction p) :=
  ((call s (.seek _) fun _ => id).trans (pause _)).trans (selectPlay _ false)

theorem seeks (h : Seeks p s s') : Picks s s' := by
  induction h with
  | refl s => exact refl s
  | button _ ih => exact (selectPlay _ false).trans ih
  | slider x _ ih => exact (controls _ ({ · with sliderValue := x }) fun _ => rfl).trans ih
  | seek time _ ih => exact (call _ (.seek time) fun _ => id).trans ih

theorem setBitRate (d : String) (s : Scope) : Picks s (s.setBitRate p d) :=
  call s (.setPeakBitRate _) fun _ => id

/-- A known speed is set, and the menus are closed. -/
theorem setVideoSpeed {r : String} {s : Scope} (hr : s.self.Tabled → r ∈ speeds) :
    Picks s (s.setVideoSpeed p r) := by
  refine ⟨⟨fun ht => ?_, fun ht he => ?_, fun _ hq => ?_⟩, .inl ?_⟩
  · rw [Scope.setVideoSpeed_self]
    cases hs : speedSetting r with
    | none => exact ⟨hr ht, ht.playerQuality, hr ht, ht.selectedQuality, ht.title⟩
    | some x =>
      obtain ⟨rate, title⟩ := x
      exact ⟨hr ht, ht.playerQuality, hr ht, ht.selectedQuality, (speedSetting_known (hr ht) hs).2⟩
  · rw [Scope.setVideoSpeed_env]
    cases hs : speedSetting r with
    | none => exact he
    | some x =>
      obtain ⟨rate, title⟩ := x
      have hrate := (speedSetting_known (hr ht) hs).1
      exact (call s (.setRate rate) fun _ _ => hrate).rated ht he
  · rw [Scope.setVideoSpeed_self]
    cases speedSetting r <;> exact hq
  · rw [Scope.setVideoSpeed_self]
    cases speedSetting r <;> rfl

theorem setVideoQuality {q : String} {s : Scope} (hq : s.self.Tabled → q ∈ videoQualityArray) :
    Picks s (s.setVideoQuality p q) := by
  refine ⟨⟨fun ht => ?_, fun ht he => ?_, fun ht _ => ?_⟩, .inl rfl⟩
  · rw [Scope.setVideoQuality_self]
    exact ⟨ht.playerSpeed, hq ht, ht.selectedSpeed, hq ht, ht.title⟩
  · rw [Scope.setVideoQuality_env]
    exact (call s (.setPeakBitRate _) fun _ => id).rated ht he
  · rw [Scope.setVideoQuality_self]
    exact qualitySetting_known (hq ht)

/-- A row of the table that is chosen is known, and the table is hidden. -/
theorem didSelectRowAt {i : ℕ} (h : s.didSelectRowAt p i = .ok s') : Picks s s' := by
  unfold Scope.didSelectRowAt at h
  split at h
  · split at h
    · cases h
    · rename_i rate hrate
      cases h
      have hr : rate ∈ speeds := List.mem_cons_of_mem _ (List.mem_of_getElem? hrate)
      have h0 : Known s (s.controls ({ · with selectedSpeed := rate })) :=
        ⟨fun ht => { ht with selectedSpeed := hr }, fun _ => id, fun _ => id⟩
      have h1 := setVideoSpeed (p := p) (s := s.controls ({ · with selectedSpeed := rate }))
        fun _ => hr
      exact ⟨(h0.trans h1.toKnown).trans ⟨fun ht => { ht with }, fun _ => id, fun _ => id⟩, .inl rfl⟩
  · split at h
    · cases h
    · rename_i quality hquality
      cases h
      have hq : quality ∈ videoQualityArray := List.mem_of_getElem? hquality
      have h0 : Known s (s.controls ({ · with selectedQuality := quality })) :=
        ⟨fun ht => { ht with selectedQuality := hq }, fun _ => id, fun _ => id⟩
      have h1 := setVideoQuality (p := p) (s := s.controls ({ · with selectedQuality := quality }))
        fun _ => hq
      exact ⟨(h0.trans h1.toKnown).trans ⟨fun ht => { ht with }, fun _ => id, fun _ => id⟩, .inl rfl⟩

theorem addTimeObserver (q : Option PlayerId) (s : Scope) : Picks s (s.addTimeObserver q) := by
  cases q <;> exact same rfl rfl rfl id

theorem removeTimeObserver {q : Option PlayerId} (h : s.removeTimeObserver q = .ok s') :
    Picks s s' := by
  rw [Scope.removeTimeObserver_ok h]
  exact same rfl rfl rfl id

theorem showTimes {item : AVPlayerItem} (h : s.showTimes item = .ok s') : Picks s s' := by
  unfold Scope.showTimes at h
  dsimp only at h
  split at h
  · cases h
  · split at h
    · cases h
    · cases h; exact same rfl rfl rfl id

/-- The menus are closed. -/
theorem resetControls (s : Scope) : Picks s (s.controls (·.resetControls)) :=
  ⟨⟨fun ht => { ht with }, fun _ => id, fun _ => id⟩, .inl rfl⟩

theorem startTimer (s : Scope) : Picks s s.startTimer := same rfl rfl rfl id

theorem resetTimer (s : Scope) : Picks s s.resetTimer := same rfl rfl rfl id

end Picks

/-- The tap opens a menu, which calls `setTableViewFrame`. -/
def Control.reloads (c : PsVideoControlsView) : Control → Bool
  | .settings => !c.settingsButton.isSelected
  | .videoQuality => !c.videoQualityButton.isSelected
  | _ => false

/-- A tap on a menu button opens the menu or hides the table. -/
theorem settingsAction_picks (s : Scope) : Picks s (s.controls (·.settingsAction)) ∨
    Control.reloads s.self.controlsView .settings = true ∧
      Known s (s.controls (·.settingsAction)) := by
  have hk : Known s (s.controls (·.settingsAction)) := by
    refine ⟨fun ht => ?_, fun _ => id, fun _ hq => ?_⟩
    · simp only [Scope.controls_self, PsVideoControlsView.settingsAction]
      split <;> exact { ht with }
    · simp only [Controller.QualityTitled, Scope.controls_self, PsVideoControlsView.settingsAction]
      split <;> exact hq
  cases hs : s.self.controlsView.settingsButton.isSelected with
  | true =>
    refine .inl ⟨hk, .inl ?_⟩
    simp only [Scope.controls_self, PsVideoControlsView.settingsAction, hs, if_true]
    rfl
  | false => exact .inr ⟨by simp [Control.reloads, hs], hk⟩

theorem videoQualityAction_picks (s : Scope) : Picks s (s.controls (·.videoQualityAction)) ∨
    Control.reloads s.self.controlsView .videoQuality = true ∧
      Known s (s.controls (·.videoQualityAction)) := by
  have hk : Known s (s.controls (·.videoQualityAction)) := by
    refine ⟨fun ht => ?_, fun _ => id, fun _ hq => ?_⟩
    · simp only [Scope.controls_self, PsVideoControlsView.videoQualityAction]
      split <;> exact { ht with }
    · simp only [Controller.QualityTitled, Scope.controls_self,
        PsVideoControlsView.videoQualityAction]
      split <;> exact hq
  cases hs : s.self.controlsView.videoQualityButton.isSelected with
  | true =>
    refine .inl ⟨hk, .inl ?_⟩
    simp only [Scope.controls_self, PsVideoControlsView.videoQualityAction, hs, if_true]
    rfl
  | false => exact .inr ⟨by simp [Control.reloads, hs], hk⟩

/-! ## The inline view -/

namespace PsVideoView

variable {s s' : Scope}

theorem addObservers_picks (s : Scope) : Picks s (addObservers s) := by
  unfold addObservers
  split
  · exact .addTimeObserver _ s
  · exact .refl s

theorem playAction_picks (s : Scope) : Picks s (playAction s) := by
  unfold playAction
  split
  · exact .pauseAction s
  · refine Picks.trans ?_ (.setVideoSpeed (·.playerSpeed))
    refine Picks.trans ?_ (.setBitRate _ _)
    refine Picks.trans ?_ (.selectPlay _ true)
    refine (addObservers_picks s).trans (.call _ .play fun _ _ => ?_)
    simp [PlayerOp.apply, rates]

theorem playBlock_picks (s : Scope) : Picks s (playBlock s) := by
  have h0 : Picks s (initVideoPlayer s) := .same rfl rfl rfl id
  exact h0.trans (playAction_picks _)

/-- The titles that a controller hands back are known. -/
theorem viewDismissed_picks (p : PlayerId) (layer : Handle) {quality speed : String} (s : Scope)
    (hq : quality ∈ videoQualityArray) (hs : speed ∈ speeds) :
    Picks s (viewDismissed p layer quality speed s) := by
  have h0 : Picks s (receive p layer quality speed s) :=
    ⟨⟨fun ht => { ht with playerSpeed := hs, playerQuality := hq }, fun _ => id, fun _ => id⟩,
      .inr ⟨rfl, rfl⟩⟩
  unfold viewDismissed
  dsimp only
  split
  · refine Picks.trans ?_ (.setVideoQuality (·.playerQuality))
    refine Picks.trans ?_ (.setVideoSpeed (·.playerSpeed))
    refine Picks.trans ?_ (.startTimer _)
    refine Picks.trans ?_ (.addTimeObserver _ _)
    refine Picks.trans ?_ (.selectPlay _ true)
    refine h0.trans (.call _ .play fun _ _ => ?_)
    simp [PlayerOp.apply, rates]
  · exact h0.trans (.pauseAction _)

theorem timerAction_picks (s : Scope) : Picks s (timerAction s) := by
  unfold timerAction
  split
  · exact (Picks.controls s (·.hide true) fun _ => rfl).trans (.resetTimer _)
  · exact .refl s

theorem timeObserverCallback_picks {alive : Bool} (h : timeObserverCallback alive s = .ok s') :
    Picks s s' := by
  obtain ⟨-, rfl⟩ | ⟨_, -, -, hshow⟩ := timeObserverCallback_cases h
  · exact .refl s'
  · refine Picks.trans ?_ (.showTimes hshow)
    split
    · exact .refl s
    · exact .startTimer s

theorem control_picks {c : Control} (h : control c s = .ok s') :
    Picks s s' ∨ c.reloads s.self.controlsView = true ∧ Known s s' := by
  cases c with
  | settings => cases h; exact settingsAction_picks s
  | videoQuality => cases h; exact videoQualityAction_picks s
  | play => cases h; exact .inl (playAction_picks s)
  | stop => cases h; exact .inl (.stopAction s)
  | forward => exact .inl (.seeks (.forwardAction h))
  | backward => exact .inl (.seeks (.backwardAction h))
  | fullScreen => cases h; exact .inl (.refl s)
  | slider x => exact .inl (.seeks (.sliderAction h))
  | row settings i => exact .inl (.didSelectRowAt h)
  | controlsView =>
    cases h
    exact .inl ((Picks.controls s (·.hide true) fun _ => rfl).trans (.resetControls _))
  | playerView =>
    cases h
    exact .inl ((Picks.controls s (·.hide false) fun _ => rfl).trans (.startTimer _))

end PsVideoView

/-! ## The full-screen controller -/

namespace PsVideoFullViewVC

variable {s s' : FullScope}

theorem on_picks {f : Option PlayerId → Scope → Scope} (hm : (f s.self.player s.scope).me = s.me)
    (h : Picks s.scope (f s.self.player s.scope)) : Picks s.scope (s.on f).scope := by
  rw [FullScope.on, FullScope.scope_put hm]; exact h

theorem tryOn_picks {f : Option PlayerId → Scope → Except Trap Scope}
    (hf : ∀ r, f s.self.player s.scope = .ok r → r.me = s.me ∧ Picks s.scope r)
    (h : s.tryOn f = .ok s') : Picks s.scope s'.scope := by
  obtain ⟨r, hr, rfl⟩ := FullScope.of_tryOn h
  rw [FullScope.scope_put (hf r hr).1]
  exact (hf r hr).2

theorem addTimeObserver_picks (s : FullScope) : Picks s.scope (addTimeObserver s).scope :=
  on_picks (Scope.addTimeObserver_me _ _) (.addTimeObserver _ _)

theorem play_picks (s : FullScope) : Picks s.scope
    ((s.on fun p => (·.call p .play)).on fun _ => (·.controls (·.selectPlay true))).scope := by
  have h1 : Picks s.scope (s.on fun p => (·.call p .play)).scope :=
    on_picks rfl (.call _ .play fun _ _ => by simp [PlayerOp.apply, rates])
  exact h1.trans (on_picks rfl (.selectPlay _ true))

/-- Set the stored speed, then the stored quality. -/
theorem settings_picks (s : FullScope) : Picks s.scope (setVideoQuality
    (setVideoSpeed s.self.playerSpeed s).self.playerQuality
    (setVideoSpeed s.self.playerSpeed s)).scope :=
  (on_picks (Scope.setVideoSpeed_me _ _ _) (.setVideoSpeed (·.playerSpeed))).trans
    (on_picks rfl (.setVideoQuality (·.playerQuality)))

theorem viewDidAppear_picks (s : FullScope) : Picks s.scope (viewDidAppear s).scope := by
  unfold viewDidAppear
  split
  · refine Picks.trans ?_ (settings_picks _)
    refine Picks.trans ?_ (on_picks rfl (.startTimer _))
    exact (play_picks s).trans (addTimeObserver_picks _)
  · exact .refl _

theorem playAction_picks (s : FullScope) : Picks s.scope (playAction s).scope := by
  unfold playAction
  split
  · exact on_picks rfl (.pauseAction _)
  · refine Picks.trans ?_ (settings_picks _)
    refine Picks.trans ?_ (play_picks _)
    split
    · exact addTimeObserver_picks s
    · exact .refl _

theorem timerAction_picks (s : FullScope) : Picks s.scope (timerAction s).scope := by
  unfold timerAction
  split
  · have h1 : Picks s.scope (hideViewToTap false (s.on fun _ => (·.controls (·.hide true)))).scope :=
      .same rfl rfl rfl id
    exact (h1.trans (on_picks rfl (.resetControls _))).trans (on_picks rfl (.resetTimer _))
  · exact .refl _

theorem timeObserverCallback_picks (h : timeObserverCallback s = .ok s') :
    Picks s.scope s'.scope := by
  obtain ⟨-, rfl⟩ | ⟨_, r, -, hshow, rfl⟩ := timeObserverCallback_cases h
  · exact .refl _
  · rw [FullScope.scope_put (Silent.showTimes hshow).me]
    exact .showTimes hshow

theorem control_picks {c : Control} (h : control c s = .ok s') : Picks s.scope s'.scope ∨
    c.reloads s.self.controlsView = true ∧ Known s.scope s'.scope := by
  cases c with
  | settings =>
    cases h
    obtain hp | ⟨hr, hk⟩ := settingsAction_picks s.scope
    · exact .inl (on_picks rfl hp)
    · exact .inr ⟨hr, hk⟩
  | videoQuality =>
    cases h
    obtain hp | ⟨hr, hk⟩ := videoQualityAction_picks s.scope
    · exact .inl (on_picks rfl hp)
    · exact .inr ⟨hr, hk⟩
  | play => cases h; exact .inl (playAction_picks s)
  | stop => cases h; exact .inl (on_picks rfl (.stopAction _))
  | forward =>
    exact .inl (tryOn_picks (fun r hr => ⟨(Commands.forwardAction hr).me,
      .seeks (.forwardAction hr)⟩) h)
  | backward =>
    exact .inl (tryOn_picks (fun r hr => ⟨(Commands.backwardAction hr).me,
      .seeks (.backwardAction hr)⟩) h)
  | fullScreen =>
    have h0 : Picks s.scope ({ s with env := s.env.removeObserver .method .willResignActive } :
      FullScope).scope := .same rfl rfl rfl id
    exact .inl (h0.trans (tryOn_picks (fun r hr => ⟨(Frame.removeTimeObserver hr).me,
      .removeTimeObserver hr⟩) h))
  | slider x =>
    exact .inl (tryOn_picks (f := fun p => (·.sliderAction p x))
      (fun r hr => ⟨(Commands.sliderAction hr).me, .seeks (.sliderAction hr)⟩) h)
  | row settings i =>
    exact .inl (tryOn_picks (f := fun p => (·.didSelectRowAt p i))
      (fun r hr => ⟨(Commands.didSelectRowAt hr).me, .didSelectRowAt hr⟩) h)
  | controlsView =>
    cases h
    have h1 : Picks s.scope (hideViewToTap false (s.on fun _ => (·.controls (·.hide true)))).scope :=
      .same rfl rfl rfl id
    exact .inl (h1.trans (on_picks rfl (.resetControls _)))
  | playerView =>
    cases h
    have h1 : Picks s.scope (hideViewToTap true (s.on fun _ => (·.controls (·.hide false)))).scope :=
      .same rfl rfl rfl id
    exact .inl (h1.trans (on_picks rfl (.startTimer _)))

end PsVideoFullViewVC

end PsVideo
