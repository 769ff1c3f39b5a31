import Reattempt.Backoff.Source

/-!
# Jitter

Jitter replaces a delay by a random one that is no longer, so that callers who
fail at one moment do not come back at one moment. It works in whole
milliseconds, of which a word holds at most `2 ^ 64 - 1`. The random number is
an argument: a roll of any size, of which the remainder is taken, so that each
value in range is some roll's. `outcomes` describes the values over all rolls.
-/

namespace Reattempt.Backoff

/-- How a delay is randomized. -/
inductive Jitter where
  | none
  | full
  | equal
deriving DecidableEq, Inhabited

namespace Jitter

def label : Jitter → String
  | .none => "none"
  | .full => "full"
  | .equal => "equal"

def all : List Jitter := [.none, .full, .equal]

def ofLabel? (s : String) : Option Jitter := all.find? (·.label == s)

/-- The whole milliseconds of a delay, as many as a word holds. -/
def millis (d : Duration) : Nat := min d.wholeMillis (UInt64.size - 1)

/-- `none` keeps the delay, `full` takes any part of it, `equal` adds any part of its
half to the half. -/
def apply (j : Jitter) (roll : Nat) (d : Duration) : Duration :=
  match j with
  | .none => d
  | .full => .ofMillis (roll % (millis d + 1)).toUInt64
  | .equal => .ofMillis (millis d / 2 + roll % (millis d / 2 + 1)).toUInt64

theorem apply_none (roll : Nat) (d : Duration) : Jitter.none.apply roll d = d := rfl

theorem toNanos_ofMillis_le {d : Duration} {k : Nat} (h : k ≤ millis d) :
    (Duration.ofMillis k.toUInt64).toNanos ≤ d.toNanos := by
  have hk : k ≤ d.wholeMillis := Nat.le_trans h (Nat.min_le_left _ _)
  have hword : k.toUInt64.toNat ≤ k := Nat.mod_le _ _
  rw [Duration.toNanos_ofMillis]
  exact Nat.le_trans (Nat.mul_le_mul_right _ (Nat.le_trans hword hk)) d.wholeMillis_mul_le

/-- Jitter makes no delay longer. -/
theorem toNanos_apply_le (j : Jitter) (roll : Nat) (d : Duration) :
    (j.apply roll d).toNanos ≤ d.toNanos := by
  cases j with
  | none => exact Nat.le_refl _
  | full =>
    rw [apply]
    exact toNanos_ofMillis_le (Nat.le_of_lt_succ (Nat.mod_lt _ (Nat.succ_pos _)))
  | equal =>
    rw [apply]
    have hroll : roll % (millis d / 2 + 1) < millis d / 2 + 1 := Nat.mod_lt _ (Nat.succ_pos _)
    exact toNanos_ofMillis_le (by omega)

/-- The numbers of nanoseconds `least`, `least + grain`, … up to `most`. -/
structure Outcomes where
  least : Nat
  most : Nat
  grain : Nat
deriving DecidableEq

/-- What `apply` can answer, over all rolls. -/
def outcomes (j : Jitter) (d : Duration) : Outcomes :=
  match j with
  | .none => ⟨d.toNanos, d.toNanos, 1⟩
  | .full => ⟨0, millis d * Duration.nanosPerMilli, Duration.nanosPerMilli⟩
  | .equal =>
    ⟨millis d / 2 * Duration.nanosPerMilli,
      2 * (millis d / 2) * Duration.nanosPerMilli, Duration.nanosPerMilli⟩

namespace Outcomes

/-- How many values there are. -/
def count (o : Outcomes) : Nat := (o.most - o.least) / o.grain + 1

/-- All values, in ascending order. -/
def toList (o : Outcomes) : List Nat :=
  (List.range o.count).map fun i => o.least + i * o.grain

/-- Whether some value lies between `lo` and `hi`, ends included. -/
def meets (o : Outcomes) (lo hi : Nat) : Bool :=
  let i := (lo - o.least + (o.grain - 1)) / o.grain
  o.least + i * o.grain ≤ min hi o.most

/-- Whether some value lies in the part numbered `part` of `parts` equal ones of the numbers
from `lo` to `hi`. -/
def meetsPart (o : Outcomes) (lo hi parts part : Nat) : Bool :=
  let first (k : Nat) : Nat := (k * (hi + 1 - lo) + (parts - 1)) / parts
  first part < first (part + 1) && o.meets (lo + first part) (lo + first (part + 1) - 1)

/-- Whether every value is a multiple of `unit`. -/
def areMultiplesOf (o : Outcomes) (unit : Nat) : Bool :=
  o.least % unit == 0 && (o.grain % unit == 0 || o.count == 1)

end Outcomes

/-- Randomizes each delay drawn from a source, with the first roll of the draw. Looking
ahead shows the delay before it is randomized. -/
def decorate {σ : Type} (j : Jitter) (src : Source σ) : Source σ where
  next rolls s :=
    let (d, s) := src.next (fun i => rolls (i + 1)) s
    (j.apply (rolls 0) d, s)
  peek := src.peek
  peekSeconds := Source.wholeSeconds src.peek

theorem decorate_next {σ : Type} (j : Jitter) (src : Source σ) (rolls : Rolls) (s : σ) :
    (j.decorate src).next rolls s =
      (j.apply (rolls 0) (src.next (fun i => rolls (i + 1)) s).1,
        (src.next (fun i => rolls (i + 1)) s).2) := rfl

end Jitter

end Reattempt.Backoff
