/-!
# Decimal digits

Decimal digits as lists of characters, most significant first. `padded` writes
a number in a fixed number of places; `fraction` writes what stands behind a
decimal point, without the zeros that carry no information.
-/

namespace Reattempt.Text.Digits

/-- The character of a digit below ten. -/
def digit (n : Nat) : Char := Char.ofNat (48 + n % 10)

/-- The last `width` digits of `n`, with zeros in front. -/
def padded : Nat → Nat → List Char
  | 0, _ => []
  | width + 1, n => padded width (n / 10) ++ [digit n]

def ofNat (n : Nat) : List Char := (toString n).toList

/-- The value of a list of digits. -/
def toNat (ds : List Char) : Nat :=
  ds.foldl (fun n c => 10 * n + (c.toNat - 48)) 0

def dropLastZeros (ds : List Char) : List Char :=
  (ds.reverse.dropWhile (· == '0')).reverse

/-- The fraction `n / 10 ^ width` behind its point; nothing at all for zero. -/
def fraction (width n : Nat) : List Char :=
  match dropLastZeros (padded width n) with
  | [] => []
  | ds => '.' :: ds

theorem length_padded (width n : Nat) : (padded width n).length = width := by
  induction width generalizing n with
  | zero => rfl
  | succ width ih => simp [padded, ih]

theorem fraction_zero (width : Nat) : fraction width 0 = [] := by
  have h : ∀ w, padded w 0 = List.replicate w '0' := by
    intro w
    induction w with
    | zero => rfl
    | succ w ih => rw [padded, ih, List.replicate_succ']; rfl
  have h' : dropLastZeros (padded width 0) = [] := by
    simp [dropLastZeros, h]
  simp [fraction, h']

end Reattempt.Text.Digits
