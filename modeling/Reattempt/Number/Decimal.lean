import Reattempt.Number.Binary
import Reattempt.Text.Digits

/-!
# The fewest digits that read back

A decimal reads back as a binary number if that number is the nearest one to
it. `shortest` looks for a decimal with as few digits as possible that does, and
takes the nearer of two with equally many. Which of two equally near ones is
taken is left to the caller.
-/

namespace Reattempt.Number

open Text

/-- `digits * 10 ^ exponent`. -/
structure Decimal where
  digits : Nat
  exponent : Int
deriving DecidableEq

/-- Which of two equally near decimals is taken. -/
inductive Tie where
  | toEven
  | up
deriving DecidableEq

namespace Decimal

/-- A significand times a power of two, written out in full. -/
def exact (significand : Nat) (exponent : Int) : Decimal :=
  ⟨(significand <<< exponent.toNat) * Nat.pow 5 (-exponent).toNat, -((-exponent).toNat : Int)⟩

def readsBackAs (d : Decimal) (significand : Nat) (exponent : Int) : Bool :=
  Binary.ofDecimal double false d.digits d.exponent = .finite false significand exponent

/-- The last zeros of the digits go into the exponent. -/
def trim : Nat → Decimal → Decimal
  | 0, d => d
  | fuel + 1, d =>
    if d.digits ≠ 0 ∧ d.digits % 10 = 0 then trim fuel ⟨d.digits / 10, d.exponent + 1⟩ else d

/-- Which end of the gap around `d`, cut to units of `10 ^ drop`, is the better one. -/
def choose (tie : Tie) (d : Decimal) (drop : Nat) (low high : Bool) : Option Decimal :=
  let unit := Nat.pow 10 drop
  let below : Decimal := ⟨d.digits / unit, d.exponent + drop⟩
  let above : Decimal := ⟨d.digits / unit + 1, d.exponent + drop⟩
  match low, high with
  | false, false => none
  | true, false => some below
  | false, true => some above
  | true, true =>
    match compare (2 * (d.digits % unit)) unit with
    | .lt => some below
    | .gt => some above
    | .eq =>
      if tie = .toEven ∧ below.digits % 2 = 0 then some below else some above

/-- The decimal next to `d` with its last `drop` digits cut off that reads back, if one does. -/
def cut? (tie : Tie) (significand : Nat) (exponent : Int) (d : Decimal) (drop : Nat) :
    Option Decimal :=
  let low : Decimal := ⟨d.digits / Nat.pow 10 drop, d.exponent + drop⟩
  let high : Decimal := ⟨d.digits / Nat.pow 10 drop + 1, d.exponent + drop⟩
  choose tie d drop (low.readsBackAs significand exponent) (high.readsBackAs significand exponent)

/-- The shortest decimal that reads back: one digit is tried first, then one more each time.
The number in full stands in if seventeen digits are not enough. -/
def shortest (tie : Tie) (significand : Nat) (exponent : Int) : Decimal :=
  let full := exact significand exponent
  let length := (Digits.ofNat full.digits).length
  let kept := (List.range (min 17 length)).map (· + 1)
  let found := kept.findSome? fun n => cut? tie significand exponent full (length - n)
  let d := found.getD full
  trim (Digits.ofNat d.digits).length d

end Decimal

end Reattempt.Number
