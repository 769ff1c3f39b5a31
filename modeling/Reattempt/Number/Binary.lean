/-!
# Binary floating-point numbers

A finite number is a significand times a power of two, with its sign beside it,
so that there are two zeros. Each operation is the exact result, rounded once
to the nearest number of the format, a tie to the even significand. Only what
durations need is here: reading, products, quotients and rounding to an
integer.
-/

namespace Reattempt.Number

/-- Significands are below `2 ^ precision`; exponents lie between the two bounds. -/
structure Format where
  precision : Nat
  minExponent : Int
  maxExponent : Int

/-- The format of 64 bits. -/
def double : Format := ⟨53, -1074, 971⟩

/-- The format of 32 bits. -/
def single : Format := ⟨24, -149, 104⟩

inductive Binary where
  | nan
  | infinite (negative : Bool)
  | finite (negative : Bool) (significand : Nat) (exponent : Int)
deriving DecidableEq

/-- The quotient as the nearest natural number, a tie as the even one. -/
def halfEven (num den : Nat) : Nat :=
  let q := num / den
  let r := num % den
  if 2 * r < den then q
  else if den < 2 * r then q + 1
  else if q % 2 = 0 then q else q + 1

/-- A fraction divided by `2 ^ e`. -/
def unscale (e : Int) (num den : Nat) : Nat × Nat :=
  (num <<< (-e).toNat, den <<< e.toNat)

/-- The exponent under which the fraction has as many bits before its point as the format
has, or the least exponent. -/
def Format.exponentOf (f : Format) (num den : Nat) : Int :=
  let e := max f.minExponent ((num.log2 : Int) - den.log2 - f.precision)
  let (n, d) := unscale e num den
  if d <<< f.precision ≤ n then e + 1 else e

namespace Binary

/-- The number of the format that is nearest to a fraction. -/
def nearest (f : Format) (negative : Bool) (num den : Nat) : Binary :=
  let e := f.exponentOf num den
  let (n, d) := unscale e num den
  let m := halfEven n d
  let (m, e) := if m = 1 <<< f.precision then (1 <<< (f.precision - 1), e + 1) else (m, e)
  if f.maxExponent < e then .infinite negative
  else if m = 0 then .finite negative 0 f.minExponent
  else .finite negative m e

/-- The nearest number to `significand * 2 ^ exponent / den`. -/
def nearestScaled (f : Format) (negative : Bool) (significand : Nat) (exponent : Int)
    (den : Nat) : Binary :=
  nearest f negative (significand <<< exponent.toNat) (den <<< (-exponent).toNat)

def ofNat (f : Format) (n : Nat) : Binary := nearest f false n 1

/-- The nearest number to `digits * 10 ^ exponent`, without writing out powers of ten that
are beyond the format. -/
def ofDecimal (f : Format) (negative : Bool) (digits : Nat) (exponent : Int) : Binary :=
  let top := (toString digits).length + exponent
  if digits = 0 ∨ top < f.minExponent then .finite negative 0 f.minExponent
  else if f.maxExponent + f.precision < top - 1 then .infinite negative
  else nearest f negative (digits * Nat.pow 10 exponent.toNat) (Nat.pow 10 (-exponent).toNat)

/-- The same number in another format, or the nearest one there. -/
def convert (f : Format) : Binary → Binary
  | .finite neg m e => nearestScaled f neg m e 1
  | x => x

def isNegative : Binary → Bool
  | .nan => false
  | .infinite neg => neg
  | .finite neg m _ => neg && m ≠ 0

def isFinite : Binary → Bool
  | .finite .. => true
  | _ => false

def mul (f : Format) : Binary → Binary → Binary
  | .finite a m e, .finite b n g => nearestScaled f (a != b) (m * n) (e + g) 1
  | .infinite a, .infinite b => .infinite (a != b)
  | .infinite a, .finite b n _ => if n = 0 then .nan else .infinite (a != b)
  | .finite a m _, .infinite b => if m = 0 then .nan else .infinite (a != b)
  | _, _ => .nan

def div (f : Format) : Binary → Binary → Binary
  | .finite a m e, .finite b n g =>
    if n = 0 then (if m = 0 then .nan else .infinite (a != b))
    else nearestScaled f (a != b) m (e - g) n
  | .infinite a, .finite b _ _ => .infinite (a != b)
  | .finite a _ _, .infinite b => .finite (a != b) 0 f.minExponent
  | _, _ => .nan

/-- The distance from zero as the nearest integer, a half rounded up; zero for what is not
finite. -/
def roundedMagnitude : Binary → Nat
  | .finite _ m e =>
    let (n, d) := (m <<< e.toNat, 1 <<< (-e).toNat)
    (2 * n + d) / (2 * d)
  | _ => 0

end Binary

end Reattempt.Number
