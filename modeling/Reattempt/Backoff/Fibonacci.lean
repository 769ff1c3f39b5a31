import Reattempt.Backoff.Policy
import Reattempt.Backoff.Source

/-!
# Delays that grow like the Fibonacci numbers

The delays are `base`, `base`, twice, three times, five times the base and so
on, up to the ceiling. A generator keeps only how often it has moved on; the
last two terms follow from that count, in words of 128 bits whose addition
stops at the largest. A term that has reached the ceiling is answered as the
ceiling, and the count then stands still.
-/

namespace Reattempt.Backoff

/-- A normalized policy and the number of moves made. -/
structure Fibonacci where
  base : Duration
  ceiling : Duration
  step : UInt32
deriving DecidableEq

namespace Fibonacci

/-- Addition of 128-bit words that stops at the largest of them. -/
def saturatingAdd (a b : Nat) : Nat := min (a + b) (Nat.pow 2 128 - 1)

/-- The last two terms, in nanoseconds, after a number of moves. -/
def terms (base ceiling : Nat) : Nat → Nat × Nat
  | 0 => (0, min base ceiling)
  | n + 1 =>
    let (previous, current) := terms base ceiling n
    if ceiling ≤ current then (previous, current)
    else (current, min (saturatingAdd previous current) ceiling)

def ofPolicy (p : Policy) : Fibonacci :=
  ⟨p.normalized.base, p.normalized.ceiling, 0⟩

/-- The policy in force, which is normalized. -/
def policy (g : Fibonacci) : Policy := ⟨g.base, g.ceiling⟩

/-- The term that a generator stands at, in nanoseconds, if it has moved `step` times. -/
def termAt (g : Fibonacci) (step : UInt32) : Nat :=
  (terms g.base.toNanos g.ceiling.toNanos step.toNat).2

def isSaturated (g : Fibonacci) (term : Nat) : Bool := g.ceiling.toNanos ≤ term

/-- The delay that stands for a term. -/
def delay (g : Fibonacci) (term : Nat) : Duration :=
  if g.isSaturated term then g.ceiling else .ofNanos term

def peek (g : Fibonacci) : Duration := g.delay (g.termAt g.step)

def next (g : Fibonacci) : Duration × Fibonacci :=
  if g.isSaturated (g.termAt g.step) then (g.ceiling, g)
  else (.ofNanos (g.termAt g.step), { g with step := g.step + 1 })

/-- A generator as a source of delays; it takes no rolls. -/
def source : Source Fibonacci where
  next _ g := g.next
  peek g := (g.peek, g)
  peekSeconds := Source.wholeSeconds fun g => (g.peek, g)

theorem fst_next (g : Fibonacci) : g.next.1 = g.peek := by
  by_cases h : g.isSaturated (g.termAt g.step) = true <;> simp [next, peek, delay, h]

theorem policy_next (g : Fibonacci) : g.next.2.policy = g.policy := by
  by_cases h : g.isSaturated (g.termAt g.step) = true <;> simp [next, policy, h]

end Fibonacci

end Reattempt.Backoff
