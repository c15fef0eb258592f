import Mathlib.Data.PNat.Defs
import Mathlib.Data.Rat.Floor
import PsVideo.Binary

/-!
# PsVideo.Time

Media time. `CMTime` is the time value AVFoundation hands out, `Seconds` a `Double` or a `Float`
computed from it: a rational, an infinity, or NaN, whose comparisons are all false. `Arithmetic`
says how results are rounded; unless another instance is named it is that of IEEE 754. Swift's
`Int(_:)` and `Int64(_:)` trap unless the value is finite and in the 64-bit range.
-/

namespace PsVideo

inductive Trap where
  /-- `!` on nil. -/
  | unwrapNil
  /-- `self!` in a callback that outlived its view. -/
  | deallocatedSelf
  /-- `Int(_:)` or `Int64(_:)` of NaN, an infinity or a value outside 64 bits. -/
  | conversion
  | indexOutOfRange
  /-- `AVPlayer.removeTimeObserver` with a token that this player has not registered. -/
  | observerNotRegistered
  deriving DecidableEq, Repr

inductive CMTime where
  | numeric (value : Int) (timescale : ℕ+)
  | indefinite
  | positiveInfinity
  | negativeInfinity
  | invalid
  deriving DecidableEq

inductive Seconds where
  | num (q : ℚ)
  | posInf
  | negInf
  | nan
  deriving DecidableEq

class Arithmetic where
  /-- The result of an operation on `Double`, given the exact one. -/
  double : ℚ → Seconds
  /-- The same for `Float`. -/
  float : ℚ → Seconds

namespace Seconds

def round (F : Format) (q : ℚ) : Seconds :=
  if 2 ^ F.overflow ≤ F.nearest q then posInf
  else if F.nearest q ≤ -2 ^ F.overflow then negInf
  else num (F.nearest q)

end Seconds

namespace Arithmetic

instance ieee : Arithmetic := ⟨.round .double, .round .single⟩

@[reducible] def exact : Arithmetic := ⟨.num, .num⟩

end Arithmetic

namespace Seconds

section

variable [Arithmetic]

def add : Seconds → ℚ → Seconds
  | num q, d => Arithmetic.double (q + d)
  | s, _ => s

/-- Multiplication by a positive number, as `div` and `scaleFloat` are by one. -/
def scale : Seconds → ℚ → Seconds
  | num q, d => Arithmetic.double (q * d)
  | s, _ => s

def div : Seconds → ℚ → Seconds
  | num q, d => Arithmetic.double (q / d)
  | s, _ => s

def toFloat : Seconds → Seconds
  | num q => Arithmetic.float q
  | s => s

def scaleFloat : Seconds → ℚ → Seconds
  | num q, d => Arithmetic.float (q * d)
  | s, _ => s

end

def gt : Seconds → Seconds → Bool
  | nan, _ | _, nan => false
  | num p, num q => decide (q < p)
  | posInf, posInf | negInf, negInf => false
  | posInf, _ | _, negInf => true
  | _, posInf | negInf, _ => false

def trunc (q : ℚ) : Int := q.num.tdiv q.den

/-- `Int(x)` and `Int64(x)`. -/
def toInt : Seconds → Except Trap Int
  | num q =>
    if -2 ^ 63 ≤ trunc q ∧ trunc q < 2 ^ 63 then .ok (trunc q) else .error .conversion
  | _ => .error .conversion

end Seconds

namespace CMTime

def zero : CMTime := numeric 0 1

def makeMillis (value : Int) : CMTime := numeric value 1000

/-- `CMTimeGetSeconds` divides as `Double`s. A timescale has 32 bits and is exact. -/
def seconds [Arithmetic] : CMTime → Seconds
  | numeric v t => (Arithmetic.double v).div (t : ℕ)
  | indefinite | invalid => .nan
  | positiveInfinity => .posInf
  | negativeInfinity => .negInf

theorem seconds_exact (v : Int) (t : ℕ+) :
    @seconds .exact (numeric v t) = .num (v / (t : ℕ)) := rfl

end CMTime

/-! ## The time label -/

def getHoursMinutesSecondsFrom (seconds : Seconds) : Except Trap (Int × Int × Int) :=
  match seconds.toInt with
  | .error t => .error t
  | .ok secs =>
    .ok (secs.tdiv 3600, (secs.tmod 3600).tdiv 60, (secs.tmod 3600).tmod 60)

/-- One field of the label: a `0` is put before a single character. -/
def padField (n : Int) : String :=
  if (toString n).length = 1 then "0" ++ toString n else toString n

def formatTimeFor (seconds : Seconds) : Except Trap String :=
  match getHoursMinutesSecondsFrom seconds with
  | .error t => .error t
  | .ok (hours, minutes, secs) =>
    if hours ≥ 1 then
      .ok (toString hours ++ ":" ++ (padField minutes ++ ":" ++ padField secs))
    else .ok (padField minutes ++ ":" ++ padField secs)

example : formatTimeFor (.num 3725) = .ok "1:02:05" := by decide +kernel

end PsVideo
