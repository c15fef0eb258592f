import PsVideo.FullScreen

/-!
# PsVideo.Inline

`PsVideoView`, the view that React Native mounts. All its handlers drive the static
`PsVideoView.player`, and `playAction` decides play or pause from the button.
-/

namespace PsVideo

abbrev PsVideoView := Controller

namespace PsVideoView

/-- The stored properties, before `setup`. -/
def init : PsVideoView := { playerSpeed := "1.0x", playerQuality := "360p" }

/-- `setup` of the view `me`: besides layout and targets, `controlsView.delegate = self`. -/
def setup (me : Owner) (v : PsVideoView) : PsVideoView := { v with controlsDelegate := some me }

section Setup

variable (me : Owner) (v : PsVideoView)

@[simp] theorem setup_controlsView : (v.setup me).controlsView = v.controlsView := rfl
@[simp] theorem setup_playerLayer : (v.setup me).playerLayer = v.playerLayer := rfl
@[simp] theorem setup_timeObserver : (v.setup me).timeObserver = v.timeObserver := rfl
@[simp] theorem setup_isTimerRunning : (v.setup me).isTimerRunning = v.isTimerRunning := rfl
@[simp] theorem setup_timer : (v.setup me).timer = v.timer := rfl
@[simp] theorem setup_playerSpeed : (v.setup me).playerSpeed = v.playerSpeed := rfl
@[simp] theorem setup_playerQuality : (v.setup me).playerQuality = v.playerQuality := rfl

end Setup

def pauseAction (s : Scope) : Scope := s.pauseAction s.env.player

def addTimeObserver (s : Scope) : Scope := s.addTimeObserver s.env.player

def addObservers (s : Scope) : Scope :=
  if s.self.timeObserver = none then addTimeObserver s else s

def removeObservers (s : Scope) : Except Trap Scope := s.removeTimeObserver s.env.player

def playAction (s : Scope) : Scope :=
  if s.self.controlsView.playButton.isSelected then pauseAction s
  else
    let s := addObservers s
    let s := s.call s.env.player .play
    let s := s.controls (·.selectPlay true)
    let s := s.setBitRate s.env.player s.self.playerQuality
    s.setVideoSpeed s.env.player s.self.playerSpeed

/-- The body of the block that `play = true` schedules, before `playAction`. -/
def initVideoPlayer (s : Scope) : Scope :=
  let layer := s.env.nextLayer s.me
  { s with
    env := (s.env.makeLayer s.me s.env.player).addSublayer s.me layer
    self := { s.self with playerLayer := some layer } }

def playBlock (s : Scope) : Scope := playAction (initVideoPlayer s)

/-- The new controller `k`. Its view is loaded by the access to `view.layer`, and it is presented
from the topmost controller of the key window. -/
def fullScreenAction (v : ViewId) (k : VcId) (s : Scope) :
    Except Trap (Scope × PsVideoFullViewVC) :=
  let vc : PsVideoFullViewVC :=
    { player := s.env.player, delegate := v, playerLayer := s.self.playerLayer,
      playerSpeed := s.self.playerSpeed, playerQuality := s.self.playerQuality }
  match removeObservers s with
  | .error t => .error t
  | .ok s =>
    let s := { s with self := { s.self with timeObserver := none } }
    let f := PsVideoFullViewVC.viewDidLoad ⟨.vc k, s.env, vc⟩
    match s.self.playerLayer with
    | none => .error .unwrapNil
    | some layer => .ok ({ s with env := f.env.addSublayer (.vc k) layer }, f.self)

/-- The assignments at the head of `viewDismissed`. -/
def receive (player : PlayerId) (layer : Handle) (quality speed : String) (s : Scope) : Scope :=
  { s with
    env := { s.env with player := some player }.addSublayer s.me layer
    self := { s.self with
      playerQuality := quality, playerSpeed := speed, playerLayer := some layer } }

def viewDismissed (player : PlayerId) (layer : Handle) (quality speed : String) (s : Scope) :
    Scope :=
  let s := receive player layer quality speed s
  if s.env.isPlaying (some player) then
    let s := s.call (some player) .play
    let s := s.controls (·.selectPlay true)
    let s := addTimeObserver s
    let s := s.startTimer
    let s := s.setVideoSpeed s.env.player s.self.playerSpeed
    s.setVideoQuality s.env.player s.self.playerQuality
  else pauseAction s

def handleControlsViewTouchAction (s : Scope) : Scope :=
  (s.controls (·.hide true)).controls (·.resetControls)

def handlePlayerViewTouchAction (s : Scope) : Scope := (s.controls (·.hide false)).startTimer

def timerAction (s : Scope) : Scope :=
  if !s.self.controlsView.videoQualityButton.isSelected &&
      !s.self.controlsView.settingsButton.isSelected then
    (s.controls (·.hide true)).resetTimer
  else s

/-- The periodic callback of `addTimeObserver`; `alive` says whether the weak `self` is still
there. The item it asks for is the static player's. -/
def timeObserverCallback [Arithmetic] (alive : Bool) (s : Scope) : Except Trap Scope :=
  match s.env.currentItem s.env.player with
  | none => .ok s
  | some item =>
    if item.status = .readyToPlay then
      if alive then (if s.self.isTimerRunning then s else s.startTimer).showTimes item
      else .error .deallocatedSelf
    else .ok s

/-- `playNextVideo(url:)` ignores its argument. -/
def playNextVideo (_url : String) (e : Env) : Env :=
  let item : AVPlayerItem := { url :=
    "https://secure.northernskystar.com/v1/videos/watch?v=443&session_id=Ek4EbK7rzziHQ66" }
  let e := e.call .manager e.player (.replaceCurrentItem item)
  let e := e.call .manager e.player (.seek .zero)
  e.call .manager e.player .play

end PsVideoView

end PsVideo
