import Reattempt.Duration
import Reattempt.Refusal

/-!
# Durations as numbers of milliseconds

A duration is written as a whole number of milliseconds if it is one and a word
holds it, and otherwise as the quotient of two floating-point numbers, which
need not say exactly how long it was. Reading takes integers that are not
negative, and floating-point numbers whose nanoseconds, rounded, fit a word;
nothing is cut to fit.
-/

namespace Reattempt.Duration

open Number

/-- What milliseconds are multiplied by. -/
def million : Binary := .ofNat double nanosPerMilli

def toMillisValue (d : Duration) : Value :=
  if d.toNanos % nanosPerMilli = 0 ∧ d.wholeMillis < UInt64.size then
    .natural d.wholeMillis.toUInt64
  else .floating ((Binary.ofNat double d.toNanos).div double million)

/-- The nanoseconds of a floating-point number of milliseconds, if a word holds them. -/
def nanosOfMillis? (ms : Binary) : Option Nat :=
  let product := ms.mul double million
  if product.isFinite ∧ product.roundedMagnitude < UInt64.size then some product.roundedMagnitude
  else none

def ofMillisValue : Value → Except Refusal Duration
  | .natural n => .ok (ofMillis n)
  | .signed n =>
    if n < 0 then .error (.negativeMillis n) else .ok (ofMillis n.toInt.toNat.toUInt64)
  | .floating x =>
    if ¬ x.isFinite ∨ x.isNegative then .error (.invalidMillis x)
    else (nanosOfMillis? x).elim (.error (.millisOutOfRange x)) fun n => .ok (ofNanos n)

end Reattempt.Duration
