import Mathlib.Logic.Function.Basic
import PsVideo.Time

/-!
# PsVideo.Platform

What iOS keeps for the app: AVFoundation's players, their time observers and layers, the run
loop's repeating timers and the notification registrations. Views are numbered in the order they
are mounted; every other object is named by the one that makes it and a serial number.

`Env` also holds the one static variable of the source, `PsVideoView.player`, and `calls`, the
list of all commands given to players so far with the object that gave them. No handler reads
`calls`.
-/

namespace PsVideo

abbrev ViewId := Nat

/-- A player, made by the `url` setter of a view. -/
structure PlayerId where
  view : ViewId
  serial : Nat
  deriving DecidableEq

/-- A full-screen controller, made by the full-screen button of a view. -/
structure VcId where
  view : ViewId
  serial : Nat
  deriving DecidableEq

/-- The objects of the app that act on the platform: a `PsVideoView`, a `PsVideoFullViewVC`, and
the static code that `PsVideoViewManager` calls. -/
inductive Owner where
  | view (v : ViewId)
  | vc (k : VcId)
  | manager
  deriving DecidableEq

/-- An observer token, a layer or a timer. -/
structure Handle where
  owner : Owner
  serial : Nat
  deriving DecidableEq

/-! ## Players -/

inductive ItemStatus where
  | unknown
  | readyToPlay
  | failed
  deriving DecidableEq

/-- `AVPlayerItem(url:)` is a fresh item: not loaded, duration indefinite, no bit-rate limit. -/
structure AVPlayerItem where
  url : String
  status : ItemStatus := .unknown
  duration : CMTime := .indefinite
  currentTime : CMTime := .zero
  preferredPeakBitRate : Nat := 0
  deriving DecidableEq

structure AVPlayer where
  currentItem : Option AVPlayerItem := none
  rate : ℚ := 0
  error : Bool := false
  deriving DecidableEq

namespace AVPlayer

/-- `AVPlayer(url:)`. -/
def ofURL (url : String) : AVPlayer := { currentItem := some { url := url } }

def currentTime (p : AVPlayer) : CMTime :=
  match p.currentItem with
  | some item => item.currentTime
  | none => .zero

/-- The extension property `isPlaying`. -/
def isPlaying (p : AVPlayer) : Bool := p.rate != 0 && !p.error

/-- Loading and playback move on. -/
def progress (p : AVPlayer) (status : ItemStatus) (duration time : CMTime) : AVPlayer :=
  { p with currentItem := p.currentItem.map fun item =>
      { item with status := status, duration := duration, currentTime := time } }

/-- The item has played to its end. -/
def ended (p : AVPlayer) : AVPlayer := { p with rate := 0 }

def failed (p : AVPlayer) : AVPlayer := { p with error := true }

end AVPlayer

/-- The commands the app gives to a player. A seek is complete when the next event arrives. -/
inductive PlayerOp where
  | play
  | pause
  | seek (time : CMTime)
  | setRate (rate : ℚ)
  | setPeakBitRate (rate : Nat)
  | replaceCurrentItem (item : AVPlayerItem)
  deriving DecidableEq

def PlayerOp.apply (p : AVPlayer) : PlayerOp → AVPlayer
  | .play => { p with rate := 1 }
  | .pause => { p with rate := 0 }
  | .seek time => { p with currentItem := p.currentItem.map ({ · with currentTime := time }) }
  | .setRate rate => { p with rate := rate }
  | .setPeakBitRate rate =>
    { p with currentItem := p.currentItem.map ({ · with preferredPeakBitRate := rate }) }
  | .replaceCurrentItem item => { p with currentItem := some item }

@[simp] theorem PlayerOp.apply_error (op : PlayerOp) (a : AVPlayer) :
    (op.apply a).error = a.error := by
  cases op <;> rfl

structure Call where
  caller : Owner
  player : PlayerId
  op : PlayerOp
  deriving DecidableEq

/-! ## Observers and notifications -/

structure TimeObserver where
  token : Handle
  player : PlayerId
  deriving DecidableEq

inductive NotificationName where
  | didEnterBackground
  | willResignActive
  deriving DecidableEq

/-- What is passed as the observer: an object, or a method reference, which Swift wraps in a new
object each time. -/
inductive Observer where
  | object (o : Owner)
  | method
  deriving DecidableEq

structure Registration where
  observer : Observer
  name : NotificationName
  deriving DecidableEq

/-! ## The environment -/

structure Env where
  player : Option PlayerId
  players : PlayerId → AVPlayer
  playerCount : ViewId → Nat
  observers : List TimeObserver
  observerCount : Owner → Nat
  layerPlayer : Handle → Option PlayerId
  superlayer : Handle → Option Owner
  layerCount : Owner → Nat
  timers : List Handle
  timerCount : Owner → Nat
  registrations : List Registration
  calls : List Call

namespace Env

def launch : Env where
  player := none
  players _ := {}
  playerCount _ := 0
  observers := []
  observerCount _ := 0
  layerPlayer _ := none
  superlayer _ := none
  layerCount _ := 0
  timers := []
  timerCount _ := 0
  registrations := []
  calls := []

/-- `p?.op`: a command of `o` to an optional player. -/
def call (e : Env) (o : Owner) (p : Option PlayerId) (op : PlayerOp) : Env :=
  { e with
    players := p.elim e.players fun q => Function.update e.players q (op.apply (e.players q))
    calls := p.elim e.calls fun q => e.calls ++ [⟨o, q, op⟩] }

@[simp] theorem call_player (e : Env) (o : Owner) (p : Option PlayerId) (op : PlayerOp) :
    (e.call o p op).player = e.player := rfl

@[simp] theorem players_call (e : Env) (o : Owner) (p : PlayerId) (op : PlayerOp) :
    (e.call o (some p) op).players p = op.apply (e.players p) := Function.update_self _ _ _

theorem players_call_of_ne (e : Env) (o : Owner) (op : PlayerOp) {p q : PlayerId} (h : q ≠ p) :
    (e.call o (some p) op).players q = e.players q := Function.update_of_ne h _ _

/-- The current player is the same, and each player is as it was or `g` of that. -/
structure Moved (g : AVPlayer → AVPlayer) (e e' : Env) : Prop where
  player : e'.player = e.player
  players : ∀ q, e'.players q = e.players q ∨ e'.players q = g (e.players q)

theorem moved_call (e : Env) (o : Owner) (p : Option PlayerId) (op : PlayerOp) :
    e.Moved op.apply (e.call o p op) where
  player := rfl
  players q := by
    cases p with
    | none => exact .inl rfl
    | some r =>
      by_cases hqr : q = r
      · subst hqr; exact .inr (players_call _ _ _ _)
      · exact .inl (players_call_of_ne _ _ _ hqr)

theorem error_call (e : Env) (o : Owner) (p : Option PlayerId) (op : PlayerOp) (q : PlayerId) :
    ((e.call o p op).players q).error = (e.players q).error := by
  obtain h | h := (moved_call e o p op).players q
  · rw [h]
  · rw [h]; simp

def nextPlayer (e : Env) (v : ViewId) : PlayerId := ⟨v, e.playerCount v⟩

/-- `PsVideoView.player = AVPlayer(url: url)` in view `v`. -/
def makePlayer (e : Env) (v : ViewId) (url : String) : Env :=
  { e with
    player := some (e.nextPlayer v)
    players := Function.update e.players (e.nextPlayer v) (.ofURL url)
    playerCount := Function.update e.playerCount v (e.playerCount v + 1) }

def nextToken (e : Env) (o : Owner) : Handle := ⟨o, e.observerCount o⟩

/-- `p.addPeriodicTimeObserver` by `o`, which returns `e.nextToken o`. -/
def addPeriodicTimeObserver (e : Env) (o : Owner) (p : PlayerId) : Env :=
  { e with
    observers := e.observers ++ [⟨e.nextToken o, p⟩]
    observerCount := Function.update e.observerCount o (e.observerCount o + 1) }

/-- `p.removeTimeObserver(token)` raises an exception unless `p` registered `token`. -/
def removeTimeObserver (e : Env) (p : PlayerId) (token : Handle) : Except Trap Env :=
  if ⟨token, p⟩ ∈ e.observers then
    .ok { e with observers := e.observers.filter (· ≠ ⟨token, p⟩) }
  else .error .observerNotRegistered

def nextLayer (e : Env) (o : Owner) : Handle := ⟨o, e.layerCount o⟩

/-- `AVPlayerLayer(player: p)` by `o`, which returns `e.nextLayer o`. -/
def makeLayer (e : Env) (o : Owner) (p : Option PlayerId) : Env :=
  { e with
    layerPlayer := Function.update e.layerPlayer (e.nextLayer o) p
    layerCount := Function.update e.layerCount o (e.layerCount o + 1) }

/-- `addSublayer`, `insertSublayer`: a layer has one superlayer, so it leaves the one it was in. -/
def addSublayer (e : Env) (o : Owner) (l : Handle) : Env :=
  { e with superlayer := Function.update e.superlayer l (some o) }

def nextTimer (e : Env) (o : Owner) : Handle := ⟨o, e.timerCount o⟩

/-- `Timer.scheduledTimer(target: o, repeats: true)` by `o`, which returns `e.nextTimer o`. -/
def scheduledTimer (e : Env) (o : Owner) : Env :=
  { e with
    timers := e.timers ++ [e.nextTimer o]
    timerCount := Function.update e.timerCount o (e.timerCount o + 1) }

/-- `timer.invalidate()`; `none` is the `Timer()` a field starts with, never scheduled. -/
def invalidate (e : Env) (t : Option Handle) : Env :=
  { e with timers := e.timers.filter (some · ≠ t) }

def addObserver (e : Env) (o : Owner) (name : NotificationName) : Env :=
  { e with registrations := e.registrations ++ [⟨.object o, name⟩] }

def removeObserver (e : Env) (o : Observer) (name : NotificationName) : Env :=
  { e with registrations := e.registrations.filter (· ≠ ⟨o, name⟩) }

/-- Something registered for `token` is still there. -/
def registered (e : Env) (token : Handle) : Bool := e.observers.any (·.token == token)

/-- The rate of the current player; 0 without one. -/
def rate (e : Env) : ℚ := e.player.elim 0 fun p => (e.players p).rate

/-- `player?.currentItem`. -/
def currentItem (e : Env) (p : Option PlayerId) : Option AVPlayerItem :=
  p.bind fun q => (e.players q).currentItem

/-- `player?.isPlaying == true`. -/
def isPlaying (e : Env) (p : Option PlayerId) : Bool :=
  p.elim false fun q => (e.players q).isPlaying

end Env

end PsVideo
