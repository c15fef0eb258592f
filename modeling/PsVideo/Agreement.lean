import PsVideo.Frame

/-!
# PsVideo.Agreement

The two controllers side by side. A `PsVideoView` and a `PsVideoFullViewVC`, each with a player of
its own in an environment of its own, are fed the same control events. Every handler but one is the
same code; `playAction` is not, and the two agree as long as the differences between the two copies
of it do not matter.
-/

namespace PsVideo

open Machine

/-! ## What is compared -/

structure Display where
  rate : ℚ
  position : CMTime
  peakBitRate : Option Nat
  playButton : UIButton
  settingsButton : UIButton
  videoQualityButton : UIButton
  tableIsHidden : Bool
  selectedSpeed : String
  selectedQuality : String
  deriving DecidableEq

/-- The player `p` and the controls. -/
def Scope.display (p : PlayerId) (s : Scope) : Display where
  rate := (s.env.players p).rate
  position := (s.env.players p).currentTime
  peakBitRate := (s.env.players p).currentItem.map (·.preferredPeakBitRate)
  playButton := s.self.controlsView.playButton
  settingsButton := s.self.controlsView.settingsButton
  videoQualityButton := s.self.controlsView.videoQualityButton
  tableIsHidden := s.self.controlsView.tableIsHidden
  selectedSpeed := s.self.controlsView.selectedSpeed
  selectedQuality := s.self.controlsView.selectedQuality

/-- The inline view under the control events. -/
def inlineControls [Arithmetic] : Machine Scope Control Trap where
  enabled s c := c ≠ .fullScreen ∧ s.self.controlsView.canTap c
  step s c := PsVideoView.control c s

instance [Arithmetic] (s : Scope) (c : Control) : Decidable (inlineControls.enabled s c) :=
  inferInstanceAs (Decidable (_ ∧ _))

/-- The full-screen controller under the same events. -/
def fullControls [Arithmetic] : Machine FullScope Control Trap where
  enabled s c := c ≠ .fullScreen ∧ s.self.controlsView.canTap c
  step s c := PsVideoFullViewVC.control c s

instance [Arithmetic] (s : FullScope) (c : Control) : Decidable (fullControls.enabled s c) :=
  inferInstanceAs (Decidable (_ ∧ _))

/-- The controls without what is not compared: the slider and the label, whether the controls are
hidden, and which menu the table would show while it is hidden. -/
def PsVideoControlsView.look (c : PsVideoControlsView) : PsVideoControlsView :=
  { c with
    isHidden := false
    isSettingsSelected := !c.tableIsHidden && c.isSettingsSelected
    sliderMaximum := .num 1
    sliderValue := .num 0
    timeLabel := "" }

theorem PsVideoControlsView.look_settingsAction (c : PsVideoControlsView) :
    c.settingsAction.look = c.look.settingsAction.look := by
  unfold PsVideoControlsView.settingsAction
  by_cases h : c.settingsButton.isSelected = true
  · have hl : c.look.settingsButton.isSelected = true := h
    rw [if_pos h, if_pos hl]; rfl
  · have hl : ¬ c.look.settingsButton.isSelected = true := h
    rw [if_neg h, if_neg hl]; rfl

theorem PsVideoControlsView.look_videoQualityAction (c : PsVideoControlsView) :
    c.videoQualityAction.look = c.look.videoQualityAction.look := by
  unfold PsVideoControlsView.videoQualityAction
  by_cases h : c.videoQualityButton.isSelected = true
  · have hl : c.look.videoQualityButton.isSelected = true := h
    rw [if_pos h, if_pos hl]; rfl
  · have hl : ¬ c.look.videoQualityButton.isSelected = true := h
    rw [if_neg h, if_neg hl]; rfl

/-- Which rows can be tapped is part of the look. -/
theorem PsVideoControlsView.canTap_look {v : PsVideoControlsView} {c : Control} :
    v.look.canTap c ↔ v.canTap c := by
  cases c with
  | row settings i =>
    simp only [canTap, shows, rows]
    cases ht : v.tableIsHidden <;> simp [look, ht]
  | _ => rfl

/-! ## The relation -/

/-- The first scope drives `p`, the static player, as the second drives `q`. -/
structure Alike (p q : PlayerId) (s t : Scope) : Prop where
  static : s.env.player = some p
  player : s.env.players p = t.env.players q
  noError : (s.env.players p).error = false
  look : s.self.controlsView.look = t.self.controlsView.look
  speed : s.self.playerSpeed = t.self.playerSpeed
  quality : s.self.playerQuality = t.self.playerQuality
  speedRow : s.self.playerSpeed ∈ videoSpeedArray
  qualityRow : s.self.playerQuality ∈ videoQualityArray

namespace Alike

variable {p q : PlayerId} {s t : Scope}

theorem display (h : Alike p q s t) : s.display p = t.display q := by
  have hl := h.look
  simp only [PsVideoControlsView.look, PsVideoControlsView.mk.injEq] at hl
  simp only [Scope.display, h.player, hl]

theorem call (h : Alike p q s t) (op : PlayerOp) :
    Alike p q (s.call (some p) op) (t.call (some q) op) where
  static := h.static
  player := by simp [h.player]
  noError := by simp [h.noError]
  look := h.look
  speed := h.speed
  quality := h.quality
  speedRow := h.speedRow
  qualityRow := h.qualityRow

/-- What `f` makes of the controls looks as `g` makes it of their look. -/
theorem controls (h : Alike p q s t) (f g : PsVideoControlsView → PsVideoControlsView)
    (hf : ∀ c, (f c).look = g c.look) :
    Alike p q (s.controls f) (t.controls f) :=
  { h with look := (hf _).trans ((congrArg g h.look).trans (hf _).symm) }

theorem storeSpeed (h : Alike p q s t) {rate : String} (hr : rate ∈ videoSpeedArray) :
    Alike p q (s.storeSpeed rate) (t.storeSpeed rate) :=
  { h with speed := rfl, speedRow := hr }

theorem storeQuality (h : Alike p q s t) {quality : String} (hq : quality ∈ videoQualityArray) :
    Alike p q (s.storeQuality quality) (t.storeQuality quality) :=
  { h with quality := rfl, qualityRow := hq }

/-! The shared handlers. -/

theorem pauseAction (h : Alike p q s t) :
    Alike p q (s.pauseAction (some p)) (t.pauseAction (some q)) :=
  (h.call .pause).controls (·.selectPlay false) (·.selectPlay false) fun _ => rfl

theorem stopAction (h : Alike p q s t) :
    Alike p q (s.stopAction (some p)) (t.stopAction (some q)) :=
  ((h.call (.seek (.makeMillis 0))).call .pause).controls
    (·.selectPlay false) (·.selectPlay false) fun _ => rfl

theorem setVideoSpeed (h : Alike p q s t) {rate : String} (hr : rate ∈ videoSpeedArray) :
    Alike p q (s.setVideoSpeed (some p) rate) (t.setVideoSpeed (some q) rate) := by
  have h1 := (h.controls (·.resetControls) (·.resetControls.look) fun _ => rfl).storeSpeed hr
  have h2 := h1.controls (({ · with selectedSpeed := rate })) ({ · with selectedSpeed := rate })
    fun _ => rfl
  obtain ⟨r, title, hs⟩ := speedSetting_table hr
  simp only [Scope.setVideoSpeed, hs]
  have h3 := (h2.call (.setRate r)).controls ((·.setSettingsTitle title))
    (·.setSettingsTitle title) fun _ => rfl
  exact h3.controls (·.selectPlay true) (·.selectPlay true) fun _ => rfl

theorem setVideoQuality (h : Alike p q s t) {quality : String}
    (hq : quality ∈ videoQualityArray) :
    Alike p q (s.setVideoQuality (some p) quality) (t.setVideoQuality (some q) quality) := by
  have h1 := (h.controls (·.resetControls) (·.resetControls.look) fun _ => rfl).storeQuality hq
  have h2 := h1.controls (({ · with selectedQuality := quality }))
    ({ · with selectedQuality := quality }) fun _ => rfl
  exact (h2.call (.setPeakBitRate (maxBitRate (qualitySetting quality).1))).controls
    (·.setQualityTitle (qualitySetting quality).2)
    (·.setQualityTitle (qualitySetting quality).2) fun _ => rfl

end Alike

/-- Both handlers trap alike, or what they leave is alike. -/
def AlikeResult (p q : PlayerId) (a b : Except Trap Scope) : Prop :=
  (∃ x, a = .error x ∧ b = .error x) ∨ ∃ s t, a = .ok s ∧ b = .ok t ∧ Alike p q s t

namespace Alike

variable {p q : PlayerId} {s t : Scope}

theorem ok (h : Alike p q s t) : AlikeResult p q (.ok s) (.ok t) := .inr ⟨s, t, rfl, rfl, h⟩

theorem seekTo (h : Alike p q s t) (ms : Seconds) :
    AlikeResult p q (Scope.seekTo p ms s) (Scope.seekTo q ms t) := by
  unfold Scope.seekTo
  cases ms.toInt with
  | error e => exact .inl ⟨e, rfl, rfl⟩
  | ok v => exact (h.call (.seek (.makeMillis v))).ok

theorem forwardAction (h : Alike p q s t) :
    AlikeResult p q (s.forwardAction (some p)) (t.forwardAction (some q)) := by
  simp only [Scope.forwardAction, h.player]
  cases (t.env.players q).currentItem with
  | none => exact h.ok
  | some item =>
    dsimp only
    by_cases hp : Scope.pastEnd (t.env.players q) item = true
    · rw [if_pos hp, if_pos hp]
      exact (h.controls (·.selectPlay false) (·.selectPlay false) fun _ => rfl).seekTo _
    · rw [if_neg hp, if_neg hp]
      exact h.seekTo _

theorem backwardAction (h : Alike p q s t) :
    AlikeResult p q (s.backwardAction (some p)) (t.backwardAction (some q)) := by
  simp only [Scope.backwardAction, h.player]
  exact h.seekTo _

theorem sliderAction (h : Alike p q s t) (x : Seconds) :
    AlikeResult p q (s.sliderAction (some p) x) (t.sliderAction (some q) x) :=
  (h.controls (({ · with sliderValue := x.toFloat })) id fun _ => rfl).seekTo _

/-- A row on display is a row of the same menu in both. -/
theorem didSelectRowAt (h : Alike p q s t) (hv : s.self.controlsView.tableIsHidden = false)
    (row : Nat) :
    AlikeResult p q (s.didSelectRowAt (some p) row) (t.didSelectRowAt (some q) row) := by
  have hl := h.look
  simp only [PsVideoControlsView.look, PsVideoControlsView.mk.injEq] at hl
  obtain ⟨-, -, -, -, ht, hm, -⟩ := hl
  rw [← ht, hv] at hm
  simp only [Bool.not_false, Bool.true_and] at hm
  unfold Scope.didSelectRowAt
  rw [hm]
  cases t.self.controlsView.isSettingsSelected with
  | true =>
    simp only [if_true]
    cases hr : videoSpeedArray[row]? with
    | none => exact .inl ⟨_, rfl, rfl⟩
    | some rate =>
      have h1 := h.controls (({ · with selectedSpeed := rate }))
        ({ · with selectedSpeed := rate }) fun _ => rfl
      have h2 := h1.setVideoSpeed (List.mem_of_getElem? hr)
      exact (h2.controls (·.hideTable true) (fun c => (c.hideTable true).look) fun _ => rfl).ok
  | false =>
    simp only [Bool.false_eq_true, if_false]
    cases hr : videoQualityArray[row]? with
    | none => exact .inl ⟨_, rfl, rfl⟩
    | some quality =>
      have h1 := h.controls (({ · with selectedQuality := quality }))
        ({ · with selectedQuality := quality }) fun _ => rfl
      have h2 := h1.setVideoQuality (List.mem_of_getElem? hr)
      exact (h2.controls (·.hideTable true) (fun c => (c.hideTable true).look) fun _ => rfl).ok

end Alike

/-! ## The two `playAction`s -/

/-- The first lines of both, for a player that is to start. -/
def Scope.begin (p : PlayerId) (s : Scope) : Scope :=
  let s := if s.self.timeObserver = none then s.addTimeObserver (some p) else s
  (s.call (some p) .play).controls (·.selectPlay true)

section Begin

variable {p : PlayerId} (s : Scope)

theorem Scope.begin_player : (s.begin p).env.player = s.env.player := by
  unfold Scope.begin; split <;> rfl

theorem Scope.begin_players :
    (s.begin p).env.players p = PlayerOp.apply (s.env.players p) .play := by
  unfold Scope.begin; split <;> simp [Scope.addTimeObserver, Env.addPeriodicTimeObserver]

theorem Scope.begin_playerSpeed : (s.begin p).self.playerSpeed = s.self.playerSpeed := by
  unfold Scope.begin; split <;> rfl

theorem Scope.begin_playerQuality : (s.begin p).self.playerQuality = s.self.playerQuality := by
  unfold Scope.begin; split <;> rfl

theorem Scope.begin_controls :
    (s.begin p).self.controlsView = s.self.controlsView.selectPlay true := by
  unfold Scope.begin; split <;> rfl

end Begin

/-- The rest in the inline view: the quality goes to the player only. -/
def PsVideoView.resume (p : PlayerId) (s : Scope) : Scope :=
  (s.setBitRate (some p) s.self.playerQuality).setVideoSpeed (some p) s.self.playerSpeed

/-- The rest in the full-screen controller, as a handler of any scope. -/
def PsVideoFullViewVC.resume (p : PlayerId) (s : Scope) : Scope :=
  (s.setVideoSpeed (some p) s.self.playerSpeed).setVideoQuality (some p) s.self.playerQuality

theorem PsVideoView.playAction_start {p : PlayerId} {s : Scope} (hp : s.env.player = some p)
    (hb : s.self.controlsView.playButton.isSelected = false) :
    playAction s = resume p (s.begin p) := by
  have hadd : (s.addTimeObserver (some p)).env.player = some p := hp
  have hcall : ∀ s : Scope, (s.call (some p) .play).env.player = s.env.player := fun _ => rfl
  have hrate : ∀ (s : Scope) d, (s.setBitRate (some p) d).env.player = s.env.player :=
    fun _ _ => rfl
  unfold playAction addObservers addTimeObserver Scope.begin resume
  by_cases ht : s.self.timeObserver = none
  · simp only [ht, hb, hp, hadd, hcall, hrate, Scope.controls_env, if_true, if_false,
      Bool.false_eq_true]
    rfl
  · simp only [ht, hb, hp, hcall, hrate, Scope.controls_env, if_false, Bool.false_eq_true]
    rfl

namespace Alike

variable {p q : PlayerId} {s : Scope} {t : FullScope}

theorem on {f : Option PlayerId → Scope → Scope}
    (h : Alike p q s (f t.self.player t.scope)) : Alike p q s (t.on f).scope := { h with }

/-- The full-screen controller starts its player as the same lines would start the other. -/
theorem fullStart (h : Alike p q s t.scope) (hq : t.self.player = some q)
    (hplay : (t.env.players q).isPlaying = false) :
    Alike p q (PsVideoFullViewVC.resume p (s.begin p)) (PsVideoFullViewVC.playAction t).scope := by
  have hstop : t.env.isPlaying t.self.player = false := by rw [hq]; exact hplay
  simp only [PsVideoFullViewVC.playAction, hstop, Bool.false_eq_true, if_false]
  have h0 : Alike p q (if s.self.timeObserver = none then s.addTimeObserver (some p) else s)
      (if t.self.timeObserver = none then PsVideoFullViewVC.addTimeObserver t else t).scope := by
    split <;> split <;> first | exact { h with } | (refine Alike.on ?_; rw [hq]; exact { h with })
  have hq0 : (if t.self.timeObserver = none then PsVideoFullViewVC.addTimeObserver t
      else t).self.player = some q := by
    split <;> exact hq
  generalize (if t.self.timeObserver = none then PsVideoFullViewVC.addTimeObserver t else t) = t1
    at h0 hq0
  have h1 : Alike p q (s.begin p) ((t1.on fun p => (·.call p .play)).on
      fun _ => (·.controls (·.selectPlay true))).scope := by
    have hc : Alike p q ((if s.self.timeObserver = none then s.addTimeObserver (some p)
        else s).call (some p) .play) (t1.on fun p => (·.call p .play)).scope := by
      refine Alike.on ?_
      rw [hq0]
      exact h0.call .play
    exact Alike.on (hc.controls (·.selectPlay true) (·.selectPlay true) fun _ => rfl)
  generalize hg : ((t1.on fun p => (·.call p .play)).on
      fun _ => (·.controls (·.selectPlay true))) = t2 at h1
  have hq2 : t2.self.player = some q := by rw [← hg]; exact hq0
  have h2 : Alike p q ((s.begin p).setVideoSpeed (some p) (s.begin p).self.playerSpeed)
      (PsVideoFullViewVC.setVideoSpeed t2.self.playerSpeed t2).scope := by
    refine Alike.on ?_
    rw [hq2, h1.speed]
    exact h1.setVideoSpeed (h1.speed ▸ h1.speedRow)
  refine Alike.on ?_
  have hquality : (s.begin p).self.playerQuality =
      (PsVideoFullViewVC.setVideoSpeed t2.self.playerSpeed t2).self.playerQuality := by
    refine Eq.trans ?_ h2.quality
    rw [Scope.setVideoSpeed_self]
  rw [(PsVideoFullViewVC.setVideoSpeed_frame _ t2).player.trans hq2, PsVideoFullViewVC.resume,
    hquality]
  exact h2.setVideoQuality (h2.quality ▸ h2.qualityRow)

end Alike

/-- The quality that `setVideoQuality` would set is the one in force. "Auto" never is: `setBitRate`
and `setVideoQuality` take it for different bit rates, which an item would show. -/
structure QualityInForce (s : Scope) : Prop where
  selected : s.self.controlsView.selectedQuality = s.self.playerQuality
  title : s.self.controlsView.videoQualityButton.title = s.self.playerQuality
  auto : s.self.playerQuality = "Auto" → s.env.currentItem s.env.player = none

section Resume

variable {p q : PlayerId} {s t : Scope}

theorem QualityInForce.begin_iff (hp : s.env.player = some p) :
    QualityInForce (s.begin p) ↔ QualityInForce s := by
  have hitem : (s.begin p).env.currentItem (s.begin p).env.player =
      s.env.currentItem s.env.player := by
    rw [s.begin_player, hp]
    have hp' := congrArg AVPlayer.currentItem (s.begin_players (p := p))
    exact hp'
  constructor
  · rintro ⟨hsel, ht, ha⟩
    rw [s.begin_controls, s.begin_playerQuality] at hsel ht
    rw [s.begin_playerQuality, hitem] at ha
    exact ⟨hsel, ht, ha⟩
  · rintro ⟨hsel, ht, ha⟩
    refine ⟨?_, ?_, ?_⟩
    · rw [s.begin_controls, s.begin_playerQuality]; exact hsel
    · rw [s.begin_controls, s.begin_playerQuality]; exact ht
    · rw [s.begin_playerQuality, hitem]; exact ha

theorem qualitySetting_row {quality : String} (h : quality ∈ videoQualityArray) :
    (qualitySetting quality).2 = quality ∧
      (maxBitRate quality = maxBitRate (qualitySetting quality).1 ↔ quality ≠ "Auto") := by
  simp only [videoQualityArray, List.mem_cons, List.not_mem_nil, or_false] at h
  rcases h with rfl | rfl | rfl | rfl | rfl <;> decide

/-- The player at the end of the inline view's `playAction`. -/
theorem PsVideoView.resume_player {r : ℚ} {title : String}
    (hr : speedSetting s.self.playerSpeed = some (r, title)) :
    (PsVideoView.resume p s).env.players p = PlayerOp.apply (PlayerOp.apply (s.env.players p)
      (.setPeakBitRate (maxBitRate s.self.playerQuality))) (.setRate r) := by
  rw [resume, Scope.setVideoSpeed_env, hr]
  simp [Scope.setBitRate]

theorem PsVideoFullViewVC.resume_player {r : ℚ} {title : String}
    (hr : speedSetting s.self.playerSpeed = some (r, title)) :
    (PsVideoFullViewVC.resume p s).env.players p = PlayerOp.apply (PlayerOp.apply
      (s.env.players p) (.setRate r))
      (.setPeakBitRate (maxBitRate (qualitySetting s.self.playerQuality).1)) := by
  rw [resume, Scope.setVideoQuality_env, Scope.setVideoSpeed_env, hr]
  simp

theorem Scope.pauseAction_rate : ((s.pauseAction (some p)).display p).rate = 0 := by
  simp [Scope.display, Scope.pauseAction, PlayerOp.apply]

theorem PsVideoView.resume_rate (hs : s.self.playerSpeed ∈ videoSpeedArray) :
    ((resume p s).display p).rate ≠ 0 := by
  obtain ⟨r, title, hr⟩ := speedSetting_table hs
  simpa [Scope.display, resume_player hr, PlayerOp.apply] using speedSetting_ne_zero hr

theorem PsVideoFullViewVC.resume_rate (hs : s.self.playerSpeed ∈ videoSpeedArray) :
    ((resume p s).display p).rate ≠ 0 := by
  obtain ⟨r, title, hr⟩ := speedSetting_table hs
  simpa [Scope.display, resume_player hr, PlayerOp.apply] using speedSetting_ne_zero hr

/-- To apply the quality that the button shows again changes nothing. -/
theorem PsVideoControlsView.setQuality_again {c : PsVideoControlsView} {quality : String}
    (hr : c.resetControls = c) (hs : c.selectedQuality = quality)
    (ht : c.videoQualityButton.title = quality) :
    { c.resetControls with selectedQuality := quality }.setQualityTitle quality = c := by
  subst hs
  rw [hr]
  calc c.setQualityTitle c.selectedQuality = c.setQualityTitle c.videoQualityButton.title := by
        rw [ht]
    _ = c := rfl

/-- With the quality in force the two rests do the same. -/
theorem QualityInForce.resume_self (hf : QualityInForce s)
    (hq : s.self.playerQuality ∈ videoQualityArray) (hs : s.self.playerSpeed ∈ videoSpeedArray) :
    (PsVideoFullViewVC.resume p s).self = (PsVideoView.resume p s).self := by
  obtain ⟨r, title, hr⟩ := speedSetting_table hs
  rw [PsVideoView.resume, PsVideoFullViewVC.resume, Scope.setVideoQuality_self,
    Scope.setVideoSpeed_self, Scope.setVideoSpeed_self, hr, (qualitySetting_row hq).1]
  -- what `setVideoSpeed` leaves of the controls
  let c := ({ s.self.controlsView.resetControls with selectedSpeed := s.self.playerSpeed }
    |>.setSettingsTitle title).selectPlay true
  have hc : { c.resetControls with selectedQuality := s.self.playerQuality }.setQualityTitle
      s.self.playerQuality = c :=
    PsVideoControlsView.setQuality_again rfl hf.selected hf.title
  exact congrArg (fun c => { s.self with controlsView := c }) hc

theorem QualityInForce.resume_player (hf : QualityInForce s) (hp : s.env.player = some p)
    (hq : s.self.playerQuality ∈ videoQualityArray) (hs : s.self.playerSpeed ∈ videoSpeedArray) :
    (PsVideoFullViewVC.resume p s).env.players p = (PsVideoView.resume p s).env.players p := by
  obtain ⟨r, title, hr⟩ := speedSetting_table hs
  rw [PsVideoView.resume_player hr, PsVideoFullViewVC.resume_player hr]
  by_cases ha : s.self.playerQuality = "Auto"
  · have hitem : (s.env.players p).currentItem = none := by
      have := hf.auto ha
      rwa [hp] at this
    simp [PlayerOp.apply, hitem]
  · rw [(qualitySetting_row hq).2.mpr ha]
    rfl

theorem Alike.of_resume (h : Alike p q (PsVideoFullViewVC.resume p s) t)
    (hp : s.env.player = some p) (hs : s.self.playerSpeed ∈ videoSpeedArray)
    (hq : s.self.playerQuality ∈ videoQualityArray) (hf : QualityInForce s) :
    Alike p q (PsVideoView.resume p s) t := by
  have hself := hf.resume_self hq hs (p := p)
  have hplayer := hf.resume_player hp hq hs
  have hstatic : (PsVideoView.resume p s).env.player = s.env.player := by
    rw [PsVideoView.resume, Scope.setVideoSpeed_env]
    split <;> rfl
  exact
    { static := hstatic.trans hp
      player := hplayer ▸ h.player
      noError := hplayer ▸ h.noError
      look := hself ▸ h.look
      speed := hself ▸ h.speed
      quality := hself ▸ h.quality
      speedRow := hself ▸ h.speedRow
      qualityRow := hself ▸ h.qualityRow }

/-- And only then: what is shown tells the two apart. -/
theorem QualityInForce.of_display (hp : s.env.player = some p)
    (hs : s.self.playerSpeed ∈ videoSpeedArray) (hq : s.self.playerQuality ∈ videoQualityArray)
    (h : (PsVideoView.resume p s).display p = (PsVideoFullViewVC.resume p s).display p) :
    QualityInForce s := by
  obtain ⟨r, title, hr⟩ := speedSetting_table hs
  obtain ⟨htitle, hrate⟩ := qualitySetting_row hq
  simp only [Scope.display, Display.mk.injEq, PsVideoView.resume_player hr,
    PsVideoFullViewVC.resume_player hr] at h
  obtain ⟨-, -, hpeak, -, -, hbutton, -, -, hsel⟩ := h
  rw [PsVideoView.resume, PsVideoFullViewVC.resume, Scope.setVideoQuality_self,
    Scope.setVideoSpeed_self, Scope.setVideoSpeed_self, hr] at hbutton hsel
  refine ⟨hsel, (congrArg UIButton.title hbutton).trans htitle, fun ha => ?_⟩
  rw [hp]
  cases hitem : (s.env.players p).currentItem with
  | none => exact hitem
  | some item =>
    have hsame : maxBitRate s.self.playerQuality =
        maxBitRate (qualitySetting s.self.playerQuality).1 := by
      simpa [PlayerOp.apply, hitem] using hpeak
    exact absurd ha (hrate.mp hsame)

end Resume

/-! ## Every sequence of control events -/

/-- The inline controller `s` and the full-screen controller `t`, each with its own player. -/
structure Paired (p q : PlayerId) (s : Scope) (t : FullScope) : Prop
    extends Alike p q s t.scope where
  own : t.self.player = some q

/-- Both trap alike, or what they leave is paired again. -/
def PairedResult (p q : PlayerId) (a : Except Trap Scope) (b : Except Trap FullScope) : Prop :=
  (∃ x, a = .error x ∧ b = .error x) ∨ ∃ s t, a = .ok s ∧ b = .ok t ∧ Paired p q s t

/-- The two controllers show the same. -/
def SameDisplay (p q : PlayerId) (s : Scope) (t : FullScope) : Prop :=
  s.display p = t.scope.display q

/-- A tap on play finds the inline button telling the truth and, if the player is to start, the
quality in force. -/
def PlaysAlike (s : Scope) : Control → Prop
  | .play => s.self.controlsView.playButton.isSelected = s.env.isPlaying s.env.player ∧
      (s.self.controlsView.playButton.isSelected = false → QualityInForce s)
  | _ => True

namespace Paired

variable {p q : PlayerId} {s : Scope} {t : FullScope}

/-- `playAction` of both, when the condition holds. -/
theorem playAction (h : Paired p q s t) (hg : PlaysAlike s .play) :
    Paired p q (PsVideoView.playAction s) (PsVideoFullViewVC.playAction t) := by
  obtain ⟨hb, hf⟩ := hg
  have hplay : t.env.isPlaying t.self.player = s.self.controlsView.playButton.isSelected := by
    rw [hb, h.own, h.static]
    exact congrArg AVPlayer.isPlaying h.player.symm
  refine ⟨?_, (PsVideoFullViewVC.playAction_frame t).player.trans h.own⟩
  cases hsel : s.self.controlsView.playButton.isSelected with
  | true =>
    rw [hsel] at hplay
    simp only [PsVideoView.playAction, PsVideoFullViewVC.playAction, hsel, hplay, if_true]
    refine Alike.on ?_
    rw [PsVideoView.pauseAction, h.static, h.own]
    exact h.toAlike.pauseAction
  | false =>
    rw [hsel, h.own] at hplay
    rw [PsVideoView.playAction_start h.static hsel]
    refine (h.toAlike.fullStart h.own hplay).of_resume (s.begin_player.trans h.static) ?_ ?_
      ((QualityInForce.begin_iff h.static).mpr (hf hsel))
    · rw [s.begin_playerSpeed]; exact h.speedRow
    · rw [s.begin_playerQuality]; exact h.qualityRow

theorem pauseAction (h : Paired p q s t) :
    Alike p q (PsVideoView.pauseAction s) (PsVideoFullViewVC.pauseAction t).scope := by
  refine Alike.on ?_
  rw [PsVideoView.pauseAction, h.static, h.own]
  exact h.toAlike.pauseAction

/-- Without it, the two show different things right after the tap. -/
theorem playAction_display (h : Paired p q s t)
    (hd : SameDisplay p q (PsVideoView.playAction s) (PsVideoFullViewVC.playAction t)) :
    PlaysAlike s .play := by
  have hplay : t.env.isPlaying t.self.player = s.env.isPlaying s.env.player := by
    rw [h.own, h.static]
    exact congrArg AVPlayer.isPlaying h.player.symm
  have hspeed : (s.begin p).self.playerSpeed ∈ videoSpeedArray := by
    rw [s.begin_playerSpeed]; exact h.speedRow
  have hquality : (s.begin p).self.playerQuality ∈ videoQualityArray := by
    rw [s.begin_playerQuality]; exact h.qualityRow
  unfold SameDisplay at hd
  cases hsel : s.self.controlsView.playButton.isSelected with
  | true =>
    cases hp : s.env.isPlaying s.env.player with
    | true => exact ⟨by rw [hsel, hp], by simp [hsel]⟩
    | false =>
      -- the inline view pauses and the controller starts
      rw [hp, h.own] at hplay
      have hpause : PsVideoView.playAction s = PsVideoView.pauseAction s := by
        simp [PsVideoView.playAction, hsel]
      rw [hpause, ← (h.toAlike.fullStart h.own hplay).display] at hd
      have hrate := congrArg Display.rate hd
      rw [PsVideoView.pauseAction, h.static, Scope.pauseAction_rate] at hrate
      exact absurd hrate.symm (PsVideoFullViewVC.resume_rate hspeed)
  | false =>
    rw [PsVideoView.playAction_start h.static hsel] at hd
    cases hp : s.env.isPlaying s.env.player with
    | true =>
      have hpause : PsVideoFullViewVC.playAction t = PsVideoFullViewVC.pauseAction t := by
        simp [PsVideoFullViewVC.playAction, hplay, hp]
      rw [hpause, ← h.pauseAction.display] at hd
      have hrate := congrArg Display.rate hd
      rw [PsVideoView.pauseAction, h.static, Scope.pauseAction_rate] at hrate
      exact absurd hrate (PsVideoView.resume_rate hspeed)
    | false =>
      refine ⟨by rw [hsel, hp], fun _ => ?_⟩
      rw [hp, h.own] at hplay
      rw [← (h.toAlike.fullStart h.own hplay).display] at hd
      exact (QualityInForce.begin_iff h.static).mp
        (.of_display (s.begin_player.trans h.static) hspeed hquality hd)

theorem canTap (h : Paired p q s t) {c : Control} (hc : s.self.controlsView.canTap c) :
    t.self.controlsView.canTap c := by
  rw [← PsVideoControlsView.canTap_look] at hc ⊢
  rw [← show s.self.controlsView.look = t.self.controlsView.look from h.look]
  exact hc

/-- A handler that both share. -/
theorem of_result {f : Option PlayerId → Scope → Except Trap Scope} (h : Paired p q s t)
    (hf : AlikeResult p q (f (some p) s) (f (some q) t.scope)) :
    PairedResult p q (f s.env.player s) (t.tryOn f) := by
  unfold FullScope.tryOn
  rw [h.own, h.static]
  obtain ⟨x, h1, h2⟩ | ⟨s', r, h1, h2, hr⟩ := hf
  · exact .inl ⟨x, h1, by rw [h2]⟩
  · exact .inr ⟨s', t.put r, h1, by rw [h2], { hr with own := h.own }⟩

theorem of_total {f : Option PlayerId → Scope → Scope} (h : Paired p q s t)
    (hf : Alike p q (f (some p) s) (f (some q) t.scope)) :
    PairedResult p q (.ok (f s.env.player s)) (.ok (t.on f)) := by
  refine .inr ⟨_, _, rfl, rfl, Alike.on ?_, h.own⟩
  rw [h.static, h.own]
  exact hf

/-- A control event that meets the condition. -/
theorem step (h : Paired p q s t) {c : Control} (he : inlineControls.enabled s c)
    (hg : PlaysAlike s c) :
    PairedResult p q (inlineControls.step s c) (fullControls.step t c) := by
  have ha := h.toAlike
  cases c with
  | play => exact .inr ⟨_, _, rfl, rfl, h.playAction hg⟩
  | stop => exact h.of_total (f := Scope.stopAction) ha.stopAction
  | forward => exact h.of_result (f := Scope.forwardAction) ha.forwardAction
  | backward => exact h.of_result (f := Scope.backwardAction) ha.backwardAction
  | fullScreen => exact absurd rfl he.1
  | slider x => exact h.of_result (f := fun p => (·.sliderAction p x)) (ha.sliderAction x)
  | settings =>
    exact h.of_total (f := fun _ => (·.controls (·.settingsAction)))
      (ha.controls _ (·.settingsAction.look) (·.look_settingsAction))
  | videoQuality =>
    exact h.of_total (f := fun _ => (·.controls (·.videoQualityAction)))
      (ha.controls _ (·.videoQualityAction.look) (·.look_videoQualityAction))
  | row settings i =>
    exact h.of_result (f := fun p => (·.didSelectRowAt p i)) (ha.didSelectRowAt he.2.1 i)
  | controlsView =>
    have hr := ha.controls (·.resetControls) (·.resetControls.look) fun _ => rfl
    exact .inr ⟨_, _, rfl, rfl, { ha with own := h.own, look := hr.look }⟩
  | playerView => exact .inr ⟨_, _, rfl, rfl, { ha with own := h.own }⟩

/-- A control event that does not. -/
theorem step_apart (h : Paired p q s t) {c : Control} (hg : ¬ PlaysAlike s c) :
    ∃ s' t', inlineControls.step s c = .ok s' ∧ fullControls.step t c = .ok t' ∧
      ¬ SameDisplay p q s' t' := by
  cases c with
  | play => exact ⟨_, _, rfl, rfl, fun hd => hg (h.playAction_display hd)⟩
  | _ => exact absurd trivial hg

end Paired

/-- No menu is open. -/
def PsVideoControlsView.Closed (c : PsVideoControlsView) : Prop :=
  c.tableIsHidden = true ∧ c.settingsButton.isSelected = false ∧
    c.videoQualityButton.isSelected = false

/-- Equal players that have not failed, buttons that tell the truth about them, no menu open, equal
titles, and one speed and quality from the tables. -/
structure Start (p q : PlayerId) (s : Scope) (t : FullScope) : Prop where
  static : s.env.player = some p
  own : t.self.player = some q
  player : s.env.players p = t.env.players q
  noError : (s.env.players p).error = false
  inlineButton : s.self.controlsView.playButton.isSelected = (s.env.players p).isPlaying
  fullButton : t.self.controlsView.playButton.isSelected = (t.env.players q).isPlaying
  inlineClosed : s.self.controlsView.Closed
  fullClosed : t.self.controlsView.Closed
  playTitle : s.self.controlsView.playButton.title = t.self.controlsView.playButton.title
  speedTitle : s.self.controlsView.settingsButton.title = t.self.controlsView.settingsButton.title
  qualityTitle : s.self.controlsView.videoQualityButton.title =
    t.self.controlsView.videoQualityButton.title
  speed : s.self.playerSpeed = t.self.playerSpeed
  quality : s.self.playerQuality = t.self.playerQuality
  speedRow : s.self.playerSpeed ∈ videoSpeedArray
  qualityRow : s.self.playerQuality ∈ videoQualityArray

/-- The strings last chosen, which the titles do not determine. -/
def SameChoice (c d : PsVideoControlsView) : Prop :=
  c.selectedSpeed = d.selectedSpeed ∧ c.selectedQuality = d.selectedQuality

theorem Start.paired {p q : PlayerId} {s : Scope} {t : FullScope} (h : Start p q s t)
    (hc : SameChoice s.self.controlsView t.self.controlsView) : Paired p q s t := by
  have hplay : s.self.controlsView.playButton = t.self.controlsView.playButton :=
    UIButton.ext (by rw [h.inlineButton, h.fullButton, h.player]) h.playTitle
  have hsettings : s.self.controlsView.settingsButton = t.self.controlsView.settingsButton :=
    UIButton.ext (h.inlineClosed.2.1.trans h.fullClosed.2.1.symm) h.speedTitle
  have hquality : s.self.controlsView.videoQualityButton =
      t.self.controlsView.videoQualityButton :=
    UIButton.ext (h.inlineClosed.2.2.trans h.fullClosed.2.2.symm) h.qualityTitle
  have hlook : s.self.controlsView.look = t.self.controlsView.look := by
    simp only [PsVideoControlsView.look, hplay, hsettings, hquality, h.inlineClosed.1,
      h.fullClosed.1, hc.1, hc.2, Bool.not_true, Bool.false_and]
  exact { h with look := hlook }

/-- **The two controllers drive the player alike** exactly as long as they start with one choice
and every tap on play meets the condition: then, and only then, they show the same after every
prefix. -/
theorem drive_alike_iff {p q : PlayerId} {s : Scope} {t : FullScope} (h : Start p q s t)
    (cs : List Control) : Lockstep inlineControls fullControls (SameDisplay p q) s t cs ↔
      SameChoice s.self.controlsView t.self.controlsView ∧ Along inlineControls PlaysAlike s cs := by
  have main : Paired p q s t →
      (Lockstep inlineControls fullControls (SameDisplay p q) s t cs ↔
        Along inlineControls PlaysAlike s cs) :=
    lockstep_iff (M := inlineControls) (N := fullControls) (R := Paired p q) (fun s t h => h.display)
      (fun s t c h he hg => ⟨⟨he.1, h.canTap he.2⟩, h.step he hg⟩)
      (fun s t c h _ hg => h.step_apart hg)
  constructor
  · intro hl
    have hd : s.display p = t.scope.display q := hl.now
    have hc : SameChoice s.self.controlsView t.self.controlsView :=
      ⟨congrArg Display.selectedSpeed hd, congrArg Display.selectedQuality hd⟩
    exact ⟨hc, (main (h.paired hc)).mp hl⟩
  · rintro ⟨hc, ha⟩
    exact (main (h.paired hc)).mpr ha

/-- A player of an item of a minute. -/
def minuteLong (position : Int) (rate : ℚ) : AVPlayer where
  currentItem := some
    { url := "a", status := .readyToPlay, duration := .makeMillis 60000,
      currentTime := .makeMillis position }
  rate := rate

/-- A fresh inline view over such a player, and a fresh controller over another. -/
def inlineOver (a : AVPlayer) : Scope where
  me := .view 0
  env := { Env.launch with player := some ⟨0, 0⟩, players := fun _ => a }
  self := { PsVideoView.init with
    controlsView := ({} : PsVideoControlsView).selectPlay a.isPlaying }

def fullOver (a : AVPlayer) : FullScope where
  me := .vc ⟨0, 0⟩
  env := { Env.launch with players := fun _ => a }
  self :=
    { player := some ⟨0, 0⟩, delegate := 0, playerSpeed := "1.0x", playerQuality := "360p",
      controlsView := ({} : PsVideoControlsView).selectPlay a.isPlaying }

theorem start_over (a : AVPlayer) (ha : a.error = false) :
    Start ⟨0, 0⟩ ⟨0, 0⟩ (inlineOver a) (fullOver a) where
  static := rfl
  own := rfl
  player := rfl
  noError := ha
  inlineButton := rfl
  fullButton := rfl
  inlineClosed := ⟨rfl, rfl, rfl⟩
  fullClosed := ⟨rfl, rfl, rfl⟩
  playTitle := rfl
  speedTitle := rfl
  qualityTitle := rfl
  speed := rfl
  quality := rfl
  speedRow := show "1.0x" ∈ videoSpeedArray by decide
  qualityRow := show "360p" ∈ videoQualityArray by decide

theorem drive_alike_session : Lockstep inlineControls fullControls (SameDisplay ⟨0, 0⟩ ⟨0, 0⟩)
    (inlineOver (minuteLong 0 0)) (fullOver (minuteLong 0 0)) [.settings, .play] := by
  refine (drive_alike_iff (start_over (minuteLong 0 0) rfl) [.settings, .play]).mpr
    ⟨⟨rfl, rfl⟩, fun _ => ⟨trivial, fun s' hs' _ => ?_⟩⟩
  cases hs'
  refine ⟨⟨rfl, fun _ => ⟨rfl, rfl, fun ha => ?_⟩⟩, fun _ _ => trivial⟩
  exact absurd ha (show "360p" ≠ "Auto" by decide)

/-- `forwardAction` past the end clears the button of a player that plays on. The next tap on play
starts the one player and pauses the other. -/
theorem not_drive_alike :
    ∃ s t, Start ⟨0, 0⟩ ⟨0, 0⟩ s t ∧ SameChoice s.self.controlsView t.self.controlsView ∧
    ∃ s' t', Steps inlineControls s [.forward, .play] s' ∧
      Steps fullControls t [.forward, .play] t' ∧
      (s'.display ⟨0, 0⟩).rate = 1 ∧ (t'.scope.display ⟨0, 0⟩).rate = 0 := by
  refine ⟨inlineOver (minuteLong 50000 1), fullOver (minuteLong 50000 1), start_over _ rfl,
    ⟨rfl, rfl⟩, ?_⟩
  obtain ⟨s', hs, hr⟩ := Steps.of_exec_map inlineControls (inlineOver (minuteLong 50000 1))
    [.forward, .play] (fun s => (s.display ⟨0, 0⟩).rate) (a := 1) (by decide +kernel)
  obtain ⟨t', ht, hr'⟩ := Steps.of_exec_map fullControls (fullOver (minuteLong 50000 1))
    [.forward, .play] (fun t => (t.scope.display ⟨0, 0⟩).rate) (a := 0) (by decide +kernel)
  exact ⟨s', t', hs, ht, hr, hr'⟩

end PsVideo
