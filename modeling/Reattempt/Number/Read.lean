import Reattempt.Number.Binary
import Reattempt.Text.Digits

/-!
# Numbers from text

A text is a number if it is a sign, which may be missing, before digits with at
most one point among them and an exponent, which may be missing too, or before
the name of infinity or of what is no number, in letters of either case. There
must be a digit before or behind the point.
-/

namespace Reattempt.Number

open Text

/-- A sign and what follows it; true for a minus. -/
def readSign : List Char → Bool × List Char
  | '-' :: cs => (true, cs)
  | '+' :: cs => (false, cs)
  | cs => (false, cs)

/-- The exponent that ends a number, if nothing else does. -/
def readExponent? : List Char → Option Int
  | [] => some 0
  | mark :: cs =>
    if mark.toLower = 'e' then
      let (negative, ds) := readSign cs
      if ds.isEmpty || !ds.all Char.isDigit then none
      else some (if negative then -(Digits.toNat ds : Int) else Digits.toNat ds)
    else none

/-- The digits before and behind the point, and the rest. -/
def readMantissa (cs : List Char) : List Char × List Char × List Char :=
  let (whole, rest) := (cs.takeWhile Char.isDigit, cs.dropWhile Char.isDigit)
  match rest with
  | '.' :: rest => (whole, rest.takeWhile Char.isDigit, rest.dropWhile Char.isDigit)
  | rest => (whole, [], rest)

/-- The number of the format nearest to what the text says. -/
def Binary.read? (f : Format) (text : String) : Option Binary :=
  let (negative, cs) := readSign text.toList
  let word := String.ofList (cs.map Char.toLower)
  if word = "nan" then some .nan
  else if word = "inf" ∨ word = "infinity" then some (.infinite negative)
  else
    let (whole, fraction, rest) := readMantissa cs
    if whole.isEmpty ∧ fraction.isEmpty then none
    else
      (readExponent? rest).map fun e =>
        .ofDecimal f negative (Digits.toNat (whole ++ fraction)) (e - fraction.length)

end Reattempt.Number
