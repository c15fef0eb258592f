import PsVideo.Controls

/-!
# PsVideo.Controller

The part that `PsVideoView` and `PsVideoFullViewVC` share: both declare the same fields and carry
the same handlers, except that one drives the static `PsVideoView.player` and the other its own
`player`. Each handler here takes the player it drives as `p`. A `Scope` is what a handler sees:
the object it belongs to, that object's fields, and the environment.
-/

namespace PsVideo

structure Controller where
  controlsView : PsVideoControlsView := {}
  /-- `controlsView.delegate`, a strong reference -/
  controlsDelegate : Option Owner := none
  playerLayer : Option Handle := none
  timeObserver : Option Handle := none
  isTimerRunning : Bool := false
  timer : Option Handle := none
  playerSpeed : String
  playerQuality : String

structure Scope where
  me : Owner
  env : Env
  self : Controller

namespace Scope

/-- `p?.op` -/
def call (s : Scope) (p : Option PlayerId) (op : PlayerOp) : Scope :=
  { s with env := s.env.call s.me p op }

def controls (s : Scope) (f : PsVideoControlsView → PsVideoControlsView) : Scope :=
  { s with self := { s.self with controlsView := f s.self.controlsView } }

/-- `playerSpeed = rate` -/
def storeSpeed (s : Scope) (rate : String) : Scope :=
  { s with self := { s.self with playerSpeed := rate } }

/-- `playerQuality = quality` -/
def storeQuality (s : Scope) (quality : String) : Scope :=
  { s with self := { s.self with playerQuality := quality } }

def pauseAction (p : Option PlayerId) (s : Scope) : Scope :=
  (s.call p .pause).controls (·.selectPlay false)

def stopAction (p : Option PlayerId) (s : Scope) : Scope :=
  ((s.call p (.seek (.makeMillis 0))).call p .pause).controls (·.selectPlay false)

/-- `p.seek(to: CMTimeMake(value: Int64(ms), timescale: 1000))` -/
def seekTo (p : PlayerId) (ms : Seconds) (s : Scope) : Except Trap Scope :=
  match ms.toInt with
  | .error t => .error t
  | .ok v => .ok (s.call (some p) (.seek (.makeMillis v)))

section

variable [Arithmetic]

/-- The position a forward tap asks for lies past the end of the item. -/
def pastEnd (player : AVPlayer) (item : AVPlayerItem) : Bool :=
  (player.currentTime.seconds.add 15).gt item.duration.seconds

def forwardAction (p : Option PlayerId) (s : Scope) : Except Trap Scope :=
  match p with
  | none => .ok s
  | some q =>
    match (s.env.players q).currentItem with
    | none => .ok s
    | some item =>
      if pastEnd (s.env.players q) item then
        seekTo q (item.duration.seconds.scale 1000) (s.controls (·.selectPlay false))
      else seekTo q (((s.env.players q).currentTime.seconds.add 15).scale 1000) s

def backwardAction (p : Option PlayerId) (s : Scope) : Except Trap Scope :=
  match p with
  | none => .error .unwrapNil
  | some q =>
    let newTime := (s.env.players q).currentTime.seconds.add (-5)
    let newTime := if (Seconds.num 0).gt newTime then .num 0 else newTime
    seekTo q (newTime.scale 1000) s

/-- The user drags the slider to `x`. Without a player the argument of `seek` is not evaluated. -/
def sliderAction (p : Option PlayerId) (x : Seconds) (s : Scope) : Except Trap Scope :=
  let s := s.controls ({ · with sliderValue := x.toFloat })
  match p with
  | none => .ok s
  | some q => seekTo q (s.self.controlsView.sliderValue.scaleFloat 1000) s

end

def setBitRate (p : Option PlayerId) (definition : String) (s : Scope) : Scope :=
  s.call p (.setPeakBitRate (maxBitRate definition))

def setVideoSpeed (p : Option PlayerId) (rate : String) (s : Scope) : Scope :=
  let s := (s.controls (·.resetControls)).storeSpeed rate
  let s := s.controls ({ · with selectedSpeed := rate })
  let s := match speedSetting rate with
    | some (r, title) => (s.call p (.setRate r)).controls (·.setSettingsTitle title)
    | none => s
  s.controls (·.selectPlay true)

def setVideoQuality (p : Option PlayerId) (quality : String) (s : Scope) : Scope :=
  let s := (s.controls (·.resetControls)).storeQuality quality
  let s := s.controls ({ · with selectedQuality := quality })
  let s := s.setBitRate p (qualitySetting quality).1
  s.controls (·.setQualityTitle (qualitySetting quality).2)

/-- `tableView(_:didSelectRowAt:)`, with the controller as the delegate. -/
def didSelectRowAt (p : Option PlayerId) (row : Nat) (s : Scope) : Except Trap Scope :=
  if s.self.controlsView.isSettingsSelected then
    match videoSpeedArray[row]? with
    | none => .error .indexOutOfRange
    | some rate =>
      let s := s.controls ({ · with selectedSpeed := rate })
      .ok ((s.setVideoSpeed p rate).controls (·.hideTable true))
  else
    match videoQualityArray[row]? with
    | none => .error .indexOutOfRange
    | some quality =>
      let s := s.controls ({ · with selectedQuality := quality })
      .ok ((s.setVideoQuality p quality).controls (·.hideTable true))

def addTimeObserver (p : Option PlayerId) (s : Scope) : Scope :=
  match p with
  | none => { s with self := { s.self with timeObserver := none } }
  | some q =>
    { s with
      env := s.env.addPeriodicTimeObserver s.me q
      self := { s.self with timeObserver := some (s.env.nextToken s.me) } }

/-- `if timeObserver != nil { p?.removeTimeObserver(timeObserver!) }` -/
def removeTimeObserver (p : Option PlayerId) (s : Scope) : Except Trap Scope :=
  match s.self.timeObserver, p with
  | some token, some q =>
    match s.env.removeTimeObserver q token with
    | .error t => .error t
    | .ok env => .ok { s with env := env }
  | _, _ => .ok s

def startTimer (s : Scope) : Scope :=
  { s with
    env := s.env.scheduledTimer s.me
    self := { s.self with isTimerRunning := true, timer := some (s.env.nextTimer s.me) } }

def resetTimer (s : Scope) : Scope := { s with env := s.env.invalidate s.self.timer }

/-- The part of the periodic callback that shows the item's times. -/
def showTimes [Arithmetic] (item : AVPlayerItem) (s : Scope) : Except Trap Scope :=
  let s := s.controls ({ · with
    sliderMaximum := item.duration.seconds.toFloat
    sliderValue := item.currentTime.seconds.toFloat })
  match formatTimeFor item.currentTime.seconds with
  | .error t => .error t
  | .ok playhead =>
    match formatTimeFor item.duration.seconds with
    | .error t => .error t
    | .ok duration => .ok (s.controls ({ · with timeLabel := playhead ++ "-" ++ duration }))

/-! ## The fields after a primitive -/

section Fields

variable (s : Scope) (p : Option PlayerId) (op : PlayerOp)
  (f : PsVideoControlsView → PsVideoControlsView) (x : String)

@[simp] theorem call_me : (s.call p op).me = s.me := rfl
@[simp] theorem call_self : (s.call p op).self = s.self := rfl
@[simp] theorem call_env : (s.call p op).env = s.env.call s.me p op := rfl

@[simp] theorem controls_me : (s.controls f).me = s.me := rfl
@[simp] theorem controls_env : (s.controls f).env = s.env := rfl
@[simp] theorem controls_self :
    (s.controls f).self = { s.self with controlsView := f s.self.controlsView } := rfl

@[simp] theorem addTimeObserver_me : (s.addTimeObserver p).me = s.me := by cases p <;> rfl
@[simp] theorem addTimeObserver_player :
    (s.addTimeObserver p).env.player = s.env.player := by cases p <;> rfl
@[simp] theorem addTimeObserver_playerSpeed :
    (s.addTimeObserver p).self.playerSpeed = s.self.playerSpeed := by cases p <;> rfl
@[simp] theorem addTimeObserver_playerQuality :
    (s.addTimeObserver p).self.playerQuality = s.self.playerQuality := by cases p <;> rfl

@[simp] theorem startTimer_me : s.startTimer.me = s.me := rfl
@[simp] theorem startTimer_player : s.startTimer.env.player = s.env.player := rfl

@[simp] theorem setVideoSpeed_me : (s.setVideoSpeed p x).me = s.me := by
  unfold setVideoSpeed; cases speedSetting x <;> rfl
@[simp] theorem setVideoSpeed_player : (s.setVideoSpeed p x).env.player = s.env.player := by
  unfold setVideoSpeed; cases speedSetting x <;> rfl

end Fields

/-- The rate and the title come from the switch; the rest is done for any text. -/
theorem setVideoSpeed_env (p : Option PlayerId) (r : String) (s : Scope) :
    (s.setVideoSpeed p r).env = match speedSetting r with
      | some (rate, _) => s.env.call s.me p (.setRate rate)
      | none => s.env := by
  unfold setVideoSpeed
  cases speedSetting r <;> rfl

theorem setVideoSpeed_self (p : Option PlayerId) (r : String) (s : Scope) :
    (s.setVideoSpeed p r).self = { s.self with
      playerSpeed := r
      controlsView := (match speedSetting r with
        | some (_, title) => { s.self.controlsView.resetControls with selectedSpeed := r }
            |>.setSettingsTitle title
        | none => { s.self.controlsView.resetControls with selectedSpeed := r }).selectPlay true } := by
  unfold setVideoSpeed
  cases speedSetting r <;> rfl

theorem setVideoQuality_env (p : Option PlayerId) (quality : String) (s : Scope) :
    (s.setVideoQuality p quality).env =
      s.env.call s.me p (.setPeakBitRate (maxBitRate (qualitySetting quality).1)) := rfl

theorem setVideoQuality_self (p : Option PlayerId) (quality : String) (s : Scope) :
    (s.setVideoQuality p quality).self = { s.self with
      playerQuality := quality
      controlsView := { s.self.controlsView.resetControls with selectedQuality := quality }
        |>.setQualityTitle (qualitySetting quality).2 } := rfl

end Scope

end PsVideo
