import Reattempt.Number.Decimal

/-!
# Numbers as text

A layout says which numbers are written with their digits in place and which
with an exponent, and whether a whole number shows its point. The digits are
always the fewest that read back.
-/

namespace Reattempt.Number

open Text

/-- How numbers are written. -/
structure Layout where
  /-- The exponents of the first digit that are written in place; all, if none is given. -/
  plain : Option (Int × Int)
  /-- Whole numbers are written with `.0`. -/
  wholePoint : Bool
  tie : Tie

namespace Layout

/-- The digits with the point after `point` of them. -/
def inPlace (l : Layout) (ds : List Char) (point : Int) : List Char :=
  if point ≤ 0 then
    '0' :: '.' :: List.replicate (-point).toNat '0' ++ ds
  else if ds.length ≤ point then
    ds ++ List.replicate (point.toNat - ds.length) '0' ++ (if l.wholePoint then ['.', '0'] else [])
  else ds.take point.toNat ++ '.' :: ds.drop point.toNat

/-- One digit, the others behind a point, and a signed exponent. -/
def withExponent (ds : List Char) (e : Int) : List Char :=
  let fraction := if ds.length ≤ 1 then [] else '.' :: ds.drop 1
  let sign := if e < 0 then '-' else '+'
  ds.take 1 ++ fraction ++ 'e' :: sign :: Digits.ofNat e.natAbs

def decimal (l : Layout) (d : Decimal) : List Char :=
  let ds := Digits.ofNat d.digits
  let point := ds.length + d.exponent
  match l.plain with
  | none => l.inPlace ds point
  | some (low, high) =>
    if low ≤ point - 1 ∧ point - 1 ≤ high then l.inPlace ds point
    else withExponent ds (point - 1)

def write (l : Layout) : Binary → String
  | .nan => "NaN"
  | .infinite neg => if neg then "-inf" else "inf"
  | .finite neg m e =>
    let sign := if neg then ['-'] else []
    let body :=
      if m = 0 then (if l.wholePoint then ['0', '.', '0'] else ['0'])
      else l.decimal (Decimal.shortest l.tie m e)
    String.ofList (sign ++ body)

/-- In messages every digit stands in place, and whole numbers look like integers. -/
def message : Layout := ⟨none, false, .up⟩

/-- In documents an exponent is used below `10 ^ (-5)` and from `10 ^ 16` on. -/
def document : Layout := ⟨some (-5, 15), true, .toEven⟩

end Layout

end Reattempt.Number
