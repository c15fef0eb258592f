import Mathlib.Tactic.NormNum
import PsVideo.Platform

/-!
# PsVideo.Controls

`PsVideoControlsView`: the buttons, the one table that serves both menus, and the strings behind
them. A button's title is the text of its `titleLabel`; the settings button gets the same title for
both of its states and the quality button only one.
-/

namespace PsVideo

@[ext] structure UIButton where
  isSelected : Bool := false
  title : String := ""
  deriving DecidableEq

def videoSpeedArray : List String := [".5x", ".75x", "1.0x", "1.25x", "1.5x", "1.75x", "2x"]

def videoQualityArray : List String := ["Auto", "360p", "480p", "720p", "1080p"]

structure PsVideoControlsView where
  isHidden : Bool := false
  playButton : UIButton := {}
  settingsButton : UIButton := { title := "1.0x" }
  videoQualityButton : UIButton := { title := "360p" }
  /-- `tableVideoQuality.isHidden` -/
  tableIsHidden : Bool := true
  isSettingsSelected : Bool := false
  selectedSpeed : String := "1.0x"
  selectedQuality : String := "360p"
  sliderMaximum : Seconds := .num 1
  sliderValue : Seconds := .num 0
  timeLabel : String := "00:00-00:00"
  deriving DecidableEq

namespace PsVideoControlsView

/-- `playButton.isSelected = b` -/
def selectPlay (c : PsVideoControlsView) (b : Bool) : PsVideoControlsView :=
  { c with playButton := { c.playButton with isSelected := b } }

/-- `settingsButton.isSelected = b` -/
def selectSettings (c : PsVideoControlsView) (b : Bool) : PsVideoControlsView :=
  { c with settingsButton := { c.settingsButton with isSelected := b } }

/-- `videoQualityButton.isSelected = b` -/
def selectQualityButton (c : PsVideoControlsView) (b : Bool) : PsVideoControlsView :=
  { c with videoQualityButton := { c.videoQualityButton with isSelected := b } }

/-- `settingsButton.setTitle(t, for: .normal)` and the same for `.selected` -/
def setSettingsTitle (c : PsVideoControlsView) (t : String) : PsVideoControlsView :=
  { c with settingsButton := { c.settingsButton with title := t } }

/-- `videoQualityButton.setTitle(t, for: .normal)` -/
def setQualityTitle (c : PsVideoControlsView) (t : String) : PsVideoControlsView :=
  { c with videoQualityButton := { c.videoQualityButton with title := t } }

def hide (c : PsVideoControlsView) (b : Bool) : PsVideoControlsView := { c with isHidden := b }

def hideTable (c : PsVideoControlsView) (b : Bool) : PsVideoControlsView :=
  { c with tableIsHidden := b }

def setTableViewFrame (c : PsVideoControlsView) (isSettings : Bool) : PsVideoControlsView :=
  { c with isSettingsSelected := isSettings }

/-- The rows on display, `numberOfRowsInSection` and `cellForRowAt`. -/
def rows (c : PsVideoControlsView) : List String :=
  if c.isSettingsSelected then videoSpeedArray else videoQualityArray

def resetControls (c : PsVideoControlsView) : PsVideoControlsView :=
  ((c.selectSettings false).hideTable true).selectQualityButton false

@[simp] theorem resetControls_settingsTitle (c : PsVideoControlsView) :
    c.resetControls.settingsButton.title = c.settingsButton.title := rfl

@[simp] theorem resetControls_qualityTitle (c : PsVideoControlsView) :
    c.resetControls.videoQualityButton.title = c.videoQualityButton.title := rfl

def settingsAction (c : PsVideoControlsView) : PsVideoControlsView :=
  if c.settingsButton.isSelected then (c.selectSettings false).hideTable true
  else (((c.selectSettings true).selectQualityButton false).hideTable false).setTableViewFrame true

/-- Unlike `settingsAction` this does not reset the other button. -/
def videoQualityAction (c : PsVideoControlsView) : PsVideoControlsView :=
  if c.videoQualityButton.isSelected then (c.selectQualityButton false).hideTable true
  else (((c.selectQualityButton true).setTableViewFrame false).hideTable false).setTableViewFrame
    false

end PsVideoControlsView

/-! ## The switches over the strings -/

/-- The `switch` of `setVideoSpeed`: the rate it assigns and the title it sets. -/
def speedSetting : String → Option (ℚ × String)
  | ".5x" => some (1 / 2, "0.5x")
  | ".75x" => some (3 / 4, ".75x")
  | "1.0x" => some (1, "1.0x")
  | "1.25x" => some (5 / 4, "1.25x")
  | "1.5x" => some (3 / 2, "1.5x")
  | "1.75x" => some (7 / 4, "1.75x")
  | "2x" => some (2, "2x")
  | "3x" => some (3, "3x")
  | _ => none

/-- The `switch` of `setVideoQuality`: what it passes to `setBitRate` and the title it sets. -/
def qualitySetting : String → String × String
  | "240p" => ("240p", "240p")
  | "360p" => ("360p", "360p")
  | "480p" => ("480p", "480p")
  | "720p" => ("720p", "720p")
  | "1080p" => ("1080p", "1080p")
  | "2k" => ("2k", "2k")
  | "4k" => ("4k", "4k")
  | _ => ("360p", "Auto")

/-- The `switch` of `setBitRate`. -/
def maxBitRate : String → Nat
  | "240p" => 1000
  | "360p" => 500000
  | "480p" => 100000
  | "720p" => 2500000
  | "1080p" => 4000000
  | "2k" => 8000000
  | "4k" => 20000000
  | _ => 100000

/-- No speed stands still. -/
theorem speedSetting_ne_zero {s : String} {r : ℚ} {t : String}
    (h : speedSetting s = some (r, t)) : r ≠ 0 := by
  unfold speedSetting at h
  split at h
  all_goals first
    | (cases h; norm_num)
    | cases h

/-- Every row of the speed table is a case of the switch. -/
theorem speedSetting_table {s : String} (h : s ∈ videoSpeedArray) :
    ∃ r t, speedSetting s = some (r, t) := by
  simp only [videoSpeedArray, List.mem_cons, List.not_mem_nil, or_false] at h
  rcases h with rfl | rfl | rfl | rfl | rfl | rfl | rfl <;> exact ⟨_, _, rfl⟩

end PsVideo
