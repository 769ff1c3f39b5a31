import Reattempt.Duration
import Reattempt.Text.Digits

/-!
# Durations as text

A duration is written in the largest of seconds, milliseconds, microseconds and
nanoseconds of which it holds at least one, with as many decimals as it needs.
-/

namespace Reattempt.Duration

open Text

/-- `n` units of which `10 ^ width` make one of those written. -/
def inUnits (width n : Nat) (unit : String) : String :=
  let one := Nat.pow 10 width
  toString (n / one) ++ String.ofList (Digits.fraction width (n % one)) ++ unit

def text (d : Duration) : String :=
  if d.secs > 0 then inUnits 9 d.toNanos "s"
  else if d.nanos ≥ 1000000 then inUnits 6 d.toNanos "ms"
  else if d.nanos ≥ 1000 then inUnits 3 d.toNanos "µs"
  else inUnits 0 d.toNanos "ns"

end Reattempt.Duration
