import PsVideo.Inline
import PsVideo.Machine

/-!
# PsVideo.App

The whole app as a machine. A `World` holds every `PsVideoView` and `PsVideoFullViewVC` made so
far, what is on the screen, and the blocks waiting on the main queue. An `Event` is anything that
makes the app run code: a property update or unmount from React Native, a tap, a block, a timer, a
callback of a time observer, a notification, the two callbacks of a presentation, and what a
player does by itself. Each is handled to its end before the next, on the main thread.

`accepts` stands for Foundation's `URL(string:)`: which strings it turns into a URL.
-/

namespace PsVideo

/-- What covers the screen: the inline views, or a full-screen controller being presented, shown,
or dismissed. -/
inductive Screen where
  | inline
  | presenting (k : VcId)
  | presented (k : VcId)
  | dismissing (k : VcId)
  deriving DecidableEq

def Screen.vc : Screen → Option VcId
  | .inline => none
  | .presenting k | .presented k | .dismissing k => some k

structure World where
  env : Env
  views : ViewId → PsVideoView
  mounted : ViewId → Bool
  nextView : Nat
  vcs : VcId → PsVideoFullViewVC
  vcCount : ViewId → Nat
  screen : Screen
  /-- The blocks of `asyncAfter`, by the view that scheduled them. -/
  delayed : List ViewId
  /-- The blocks of `playAnotherVideo`, by their URL. -/
  main : List String

/-- The properties of `PsVideoView` with a `didSet` that reaches the player or the controls. -/
inductive Property where
  | url (url : String)
  | paused (b : Bool)
  | play (b : Bool)
  | stop (b : Bool)
  | controls (b : Bool)
  | maxBitRate (definition : String)
  deriving DecidableEq

/-- What the user can touch in either player. `row settings i` is row `i` of the speed table or of
the quality table; `controlsView` and `playerView` are taps beside the controls. -/
inductive Control where
  | play
  | stop
  | forward
  | backward
  | fullScreen
  | slider (x : Seconds)
  | settings
  | videoQuality
  | row (settings : Bool) (i : Nat)
  | controlsView
  | playerView
  deriving DecidableEq

inductive Event where
  | mount
  | unmount (v : ViewId)
  | property (v : ViewId) (p : Property)
  | tap (v : ViewId) (c : Control)
  | fullTap (c : Control)
  | viewDidAppear
  | viewDismissed
  | delayedBlock (v : ViewId)
  | playAnotherVideo (url : String)
  | mainBlock
  | background
  | timer (t : Handle)
  | tick (t : Handle)
  | itemProgress (p : PlayerId) (status : ItemStatus) (duration time : CMTime)
  | itemEnd (p : PlayerId)
  | playbackError (p : PlayerId)
  deriving DecidableEq

namespace World

def launch : World where
  env := .launch
  views _ := PsVideoView.init
  mounted _ := false
  nextView := 0
  vcs _ := PsVideoFullViewVC.init
  vcCount _ := 0
  screen := .inline
  delayed := []
  main := []

def nextVc (w : World) (v : ViewId) : VcId := ⟨v, w.vcCount v⟩

def scope (w : World) (v : ViewId) : Scope := ⟨.view v, w.env, w.views v⟩

def put (w : World) (v : ViewId) (s : Scope) : World :=
  { w with env := s.env, views := Function.update w.views v s.self }

def fullScope (w : World) (k : VcId) : FullScope := ⟨.vc k, w.env, w.vcs k⟩

def fullPut (w : World) (k : VcId) (s : FullScope) : World :=
  { w with env := s.env, vcs := Function.update w.vcs k s.self }

def tryPut (w : World) (v : ViewId) : Except Trap Scope → Except Trap World
  | .error t => .error t
  | .ok s => .ok (w.put v s)

def tryFullPut (w : World) (k : VcId) : Except Trap FullScope → Except Trap World
  | .error t => .error t
  | .ok s => .ok (w.fullPut k s)

/-! ## Lifetimes -/

/-- A full-screen controller lives while it is on the screen, a scheduled timer has it as its
target, or the controls view that it owns has it as its delegate. -/
def vcAlive (w : World) (k : VcId) : Bool :=
  w.screen.vc == some k || w.env.timers.any (·.owner == .vc k) ||
    (w.vcs k).controlsDelegate == some (.vc k)

/-- A view lives while it is mounted, a scheduled timer has it as its target, a delayed block
captures it, the controls view that it owns has it as its delegate, or so has a live full-screen
controller. -/
def viewAlive (w : World) (v : ViewId) : Bool :=
  w.mounted v || w.env.timers.any (·.owner == .view v) || w.delayed.contains v ||
    (w.views v).controlsDelegate == some (.view v) ||
    (List.range (w.vcCount v)).any fun n => (w.vcs ⟨v, n⟩).delegate == v && w.vcAlive ⟨v, n⟩

/-! ## Handling one event -/

def setProperty (accepts : String → Bool) (w : World) (v : ViewId) : Property → Except Trap World
  | .url url =>
    if accepts url then .ok { w with env := w.env.makePlayer v url } else .error .unwrapNil
  | .paused b =>
    if b then .ok (w.put v (PsVideoView.pauseAction (w.scope v)))
    else .ok (w.put v (((w.scope v).call w.env.player .play).controls (·.selectPlay true)))
  | .play b =>
    if b then .ok { w with delayed := w.delayed ++ [v] }
    else .ok (w.put v (PsVideoView.pauseAction (w.scope v)))
  | .stop _ => .ok (w.put v ((w.scope v).stopAction w.env.player))
  | .controls b => .ok (w.put v ((w.scope v).controls (·.hide !b)))
  | .maxBitRate d =>
    .ok (w.put v (((w.scope v).controls (·.setQualityTitle d)).setBitRate w.env.player d))

end World

/-- The target of each control of an inline view, except the full-screen button. -/
def PsVideoView.control [Arithmetic] (c : Control) (s : Scope) : Except Trap Scope :=
  match c with
  | .play => .ok (PsVideoView.playAction s)
  | .stop => .ok (s.stopAction s.env.player)
  | .forward => s.forwardAction s.env.player
  | .backward => s.backwardAction s.env.player
  | .fullScreen => .ok s
  | .slider x => s.sliderAction s.env.player x
  | .settings => .ok (s.controls (·.settingsAction))
  | .videoQuality => .ok (s.controls (·.videoQualityAction))
  | .row _ i => s.didSelectRowAt s.env.player i
  | .controlsView => .ok (PsVideoView.handleControlsViewTouchAction s)
  | .playerView => .ok (PsVideoView.handlePlayerViewTouchAction s)

/-- The target of each control of a full-screen controller. -/
def PsVideoFullViewVC.control [Arithmetic] (c : Control) (s : FullScope) : Except Trap FullScope :=
  match c with
  | .play => .ok (PsVideoFullViewVC.playAction s)
  | .stop => .ok (s.on Scope.stopAction)
  | .forward => s.tryOn Scope.forwardAction
  | .backward => s.tryOn Scope.backwardAction
  | .fullScreen => PsVideoFullViewVC.backAction s
  | .slider x => s.tryOn fun p => (·.sliderAction p x)
  | .settings => .ok (s.on fun _ => (·.controls (·.settingsAction)))
  | .videoQuality => .ok (s.on fun _ => (·.controls (·.videoQualityAction)))
  | .row _ i => s.tryOn fun p => (·.didSelectRowAt p i)
  | .controlsView => .ok (PsVideoFullViewVC.handleControlsViewTouchAction s)
  | .playerView => .ok (PsVideoFullViewVC.handlePlayerViewTouchAction s)

/-- The table shows row `i` of the named menu. -/
def PsVideoControlsView.shows (c : PsVideoControlsView) (settings : Bool) (i : Nat) : Prop :=
  c.tableIsHidden = false ∧ c.isSettingsSelected = settings ∧ i < c.rows.length

instance (c : PsVideoControlsView) (settings : Bool) (i : Nat) : Decidable (c.shows settings i) :=
  inferInstanceAs (Decidable (_ ∧ _))

/-- A row can be tapped only while the table shows it. -/
def PsVideoControlsView.canTap (cv : PsVideoControlsView) : Control → Prop
  | .row settings i => cv.shows settings i
  | _ => True

instance (cv : PsVideoControlsView) (c : Control) : Decidable (cv.canTap c) := by
  unfold PsVideoControlsView.canTap; split <;> infer_instance

/-- The controller registered for `didEnterBackground`. -/
def Registration.controller : Registration → Option VcId
  | ⟨.object (.vc k), .didEnterBackground⟩ => some k
  | _ => none

def Env.backgroundObservers (e : Env) : List VcId :=
  e.registrations.filterMap Registration.controller

namespace World

def tap (w : World) (v : ViewId) : Control → Except Trap World
  | .fullScreen =>
    match PsVideoView.fullScreenAction v (w.nextVc v) (w.scope v) with
    | .error t => .error t
    | .ok (s, vc) =>
      .ok { w.put v s with
        vcs := Function.update w.vcs (w.nextVc v) vc
        vcCount := Function.update w.vcCount v (w.vcCount v + 1)
        screen := .presenting (w.nextVc v) }
  | c => w.tryPut v (PsVideoView.control c (w.scope v))

/-- A tap in the full-screen controller `k`; after `backAction` it is being dismissed. -/
def fullTap (w : World) (k : VcId) (c : Control) : Except Trap World :=
  match w.tryFullPut k (PsVideoFullViewVC.control c (w.fullScope k)) with
  | .error t => .error t
  | .ok w => .ok (if c = .fullScreen then { w with screen := .dismissing k } else w)

/-- The completion of `dismiss(animated:)`: both texts of the titles exist, the player and the
layer may not. -/
def viewDismissed (w : World) (k : VcId) : Except Trap World :=
  let vc := w.vcs k
  match vc.player, vc.playerLayer with
  | some player, some layer =>
    let w := { w with screen := .inline }
    .ok (w.put vc.delegate (PsVideoView.viewDismissed player layer
      vc.controlsView.videoQualityButton.title vc.controlsView.settingsButton.title
      (w.scope vc.delegate)))
  | _, _ => .error .unwrapNil

/-- One registration for `didEnterBackground`; it reaches a controller that is still alive. -/
def notifyBackground (w : World) (r : Registration) : World :=
  match r.controller with
  | some k =>
    if w.vcAlive k then w.fullPut k (PsVideoFullViewVC.appMovedToBackground (w.fullScope k)) else w
  | none => w

/-- The controllers that the notification of the background would reach. -/
def notified (w : World) : List VcId :=
  w.env.backgroundObservers.filter w.vcAlive

def timer (w : World) (t : Handle) : World :=
  match t.owner with
  | .view v => w.put v (PsVideoView.timerAction (w.scope v))
  | .vc k => w.fullPut k (PsVideoFullViewVC.timerAction (w.fullScope k))
  | .manager => w

def tick (w : World) (t : Handle) : Except Trap World :=
  match t.owner with
  | .view v => w.tryPut v (PsVideoView.timeObserverCallback (w.viewAlive v) (w.scope v))
  | .vc k =>
    if w.vcAlive k then w.tryFullPut k (PsVideoFullViewVC.timeObserverCallback (w.fullScope k))
    else .ok w
  | .manager => .ok w

def updatePlayer (w : World) (p : PlayerId) (f : AVPlayer → AVPlayer) : World :=
  { w with env := { w.env with
    players := Function.update w.env.players p (f (w.env.players p)) } }

/-- When an event can arrive. -/
def enabled (w : World) : Event → Prop
  | .mount | .playAnotherVideo _ | .background => True
  | .unmount v | .property v _ => w.mounted v = true
  | .tap v c => w.mounted v = true ∧ w.screen = .inline ∧ (w.views v).controlsView.canTap c
  | .fullTap c =>
    match w.screen with
    | .presented k | .dismissing k => (w.vcs k).controlsView.canTap c
    | _ => False
  | .viewDidAppear => match w.screen with | .presenting _ => True | _ => False
  | .viewDismissed => match w.screen with | .dismissing _ => True | _ => False
  | .delayedBlock v => w.delayed.head? = some v
  | .mainBlock => w.main ≠ []
  | .timer t => t ∈ w.env.timers
  | .tick t => w.env.registered t = true
  | .itemProgress p _ _ _ | .itemEnd p | .playbackError p => p.serial < w.env.playerCount p.view

instance (w : World) (e : Event) : Decidable (w.enabled e) := by
  unfold enabled; split <;> first | infer_instance | (split <;> infer_instance)

def step (accepts : String → Bool) (w : World) : Event → Except Trap World
  | .mount => .ok { w with
      views := Function.update w.views w.nextView
        (PsVideoView.setup (.view w.nextView) PsVideoView.init)
      mounted := Function.update w.mounted w.nextView true
      nextView := w.nextView + 1 }
  | .unmount v => .ok { w with mounted := Function.update w.mounted v false }
  | .property v p => w.setProperty accepts v p
  | .tap v c => w.tap v c
  | .fullTap c =>
    match w.screen.vc with
    | some k => w.fullTap k c
    | none => .ok w
  | .viewDidAppear =>
    match w.screen.vc with
    | some k => .ok { w.fullPut k (PsVideoFullViewVC.viewDidAppear (w.fullScope k)) with
        screen := .presented k }
    | none => .ok w
  | .viewDismissed =>
    match w.screen.vc with
    | some k => w.viewDismissed k
    | none => .ok w
  | .delayedBlock v =>
    .ok ({ w with delayed := w.delayed.tail }.put v (PsVideoView.playBlock (w.scope v)))
  | .playAnotherVideo url => .ok { w with main := w.main ++ [url] }
  | .mainBlock =>
    match w.main with
    | [] => .ok w
    | url :: rest => .ok { w with env := PsVideoView.playNextVideo url w.env, main := rest }
  | .background => .ok (w.env.registrations.foldl notifyBackground w)
  | .timer t => .ok (w.timer t)
  | .tick t => w.tick t
  | .itemProgress p status duration time =>
    .ok (w.updatePlayer p (·.progress status duration time))
  | .itemEnd p => .ok (w.updatePlayer p (·.ended))
  | .playbackError p => .ok (w.updatePlayer p (·.failed))

end World

/-- The app as a machine. -/
def app (accepts : String → Bool) : Machine World Event Trap where
  enabled := World.enabled
  step := World.step accepts

instance (accepts : String → Bool) (w : World) (e : Event) :
    Decidable ((app accepts).enabled w e) := inferInstanceAs (Decidable (w.enabled e))

end PsVideo
