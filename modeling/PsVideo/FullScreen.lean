import PsVideo.Controller

/-!
# PsVideo.FullScreen

`PsVideoFullViewVC`, the full-screen controller. It drives its own `player`, which
`fullScreenAction` of the inline view set to the player current at that time, and decides play or
pause from `player.isPlaying`.
-/

namespace PsVideo

structure PsVideoFullViewVC extends Controller where
  player : Option PlayerId
  delegate : ViewId
  viewToTapIsHidden : Bool := false

/-- What a handler of a `PsVideoFullViewVC` sees. -/
structure FullScope where
  me : Owner
  env : Env
  self : PsVideoFullViewVC

namespace FullScope

def scope (s : FullScope) : Scope := ⟨s.me, s.env, s.self.toController⟩

/-- Write back what a shared handler did. -/
def put (s : FullScope) (r : Scope) : FullScope :=
  { s with env := r.env, self := { s.self with toController := r.self } }

/-- A shared handler, driving the controller's own player. -/
def on (f : Option PlayerId → Scope → Scope) (s : FullScope) : FullScope :=
  s.put (f s.self.player s.scope)

/-- The same for a handler that can trap. -/
def tryOn (f : Option PlayerId → Scope → Except Trap Scope) (s : FullScope) :
    Except Trap FullScope :=
  match f s.self.player s.scope with
  | .error t => .error t
  | .ok r => .ok (s.put r)

end FullScope

namespace PsVideoFullViewVC

/-- `PsVideoFullViewVC()`, before `fullScreenAction` sets its fields. -/
def init : PsVideoFullViewVC :=
  { player := none, delegate := 0, playerSpeed := "", playerQuality := "" }

def setVideoSpeed (rate : String) (s : FullScope) : FullScope :=
  s.on fun p => (·.setVideoSpeed p rate)

def setVideoQuality (quality : String) (s : FullScope) : FullScope :=
  s.on fun p => (·.setVideoQuality p quality)

def addTimeObserver (s : FullScope) : FullScope := s.on Scope.addTimeObserver

def startTimer (s : FullScope) : FullScope := s.on fun _ => (·.startTimer)

def resetTimer (s : FullScope) : FullScope := s.on fun _ => (·.resetTimer)

def pauseAction (s : FullScope) : FullScope := s.on Scope.pauseAction

def hideViewToTap (b : Bool) (s : FullScope) : FullScope :=
  { s with self := { s.self with viewToTapIsHidden := b } }

/-- `addViewToTap` hides `viewToTap`; the other set-up of `viewDidLoad` is layout and targets. -/
def viewDidLoad (s : FullScope) : FullScope :=
  let s := hideViewToTap true s
  let s := { s with self := { s.self with controlsDelegate := some s.me } }
  { s with env := s.env.addObserver s.me .didEnterBackground }

def viewDidAppear (s : FullScope) : FullScope :=
  if s.env.isPlaying s.self.player then
    let s := s.on fun p => (·.call p .play)
    let s := s.on fun _ => (·.controls (·.selectPlay true))
    let s := addTimeObserver s
    let s := startTimer s
    let s := setVideoSpeed s.self.playerSpeed s
    setVideoQuality s.self.playerQuality s
  else s

def playAction (s : FullScope) : FullScope :=
  if s.env.isPlaying s.self.player then pauseAction s
  else
    let s := if s.self.timeObserver = none then addTimeObserver s else s
    let s := s.on fun p => (·.call p .play)
    let s := s.on fun _ => (·.controls (·.selectPlay true))
    let s := setVideoSpeed s.self.playerSpeed s
    setVideoQuality s.self.playerQuality s

/-- The registration was made for `self` and `didEnterBackground`; what is removed is one of a
method reference for `willResignActive`. The field `timeObserver` is not cleared. -/
def removeObservers (s : FullScope) : Except Trap FullScope :=
  let s := { s with env := s.env.removeObserver .method .willResignActive }
  s.tryOn Scope.removeTimeObserver

/-- Up to `dismiss(animated:)`, whose completion delivers `viewDismissed`. -/
def backAction (s : FullScope) : Except Trap FullScope := removeObservers s

def handleControlsViewTouchAction (s : FullScope) : FullScope :=
  let s := hideViewToTap false (s.on fun _ => (·.controls (·.hide true)))
  s.on fun _ => (·.controls (·.resetControls))

def handlePlayerViewTouchAction (s : FullScope) : FullScope :=
  startTimer (hideViewToTap true (s.on fun _ => (·.controls (·.hide false))))

def timerAction (s : FullScope) : FullScope :=
  if !s.self.controlsView.videoQualityButton.isSelected &&
      !s.self.controlsView.settingsButton.isSelected then
    let s := hideViewToTap false (s.on fun _ => (·.controls (·.hide true)))
    resetTimer (s.on fun _ => (·.controls (·.resetControls)))
  else s

def appMovedToBackground (s : FullScope) : FullScope := pauseAction s

/-- The periodic callback of `addTimeObserver` while the controller is alive. -/
def timeObserverCallback [Arithmetic] (s : FullScope) : Except Trap FullScope :=
  match s.env.currentItem s.self.player with
  | none => .ok s
  | some item =>
    if item.status = .readyToPlay then s.tryOn fun _ => (·.showTimes item) else .ok s

end PsVideoFullViewVC

end PsVideo
