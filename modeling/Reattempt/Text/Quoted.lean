import Reattempt.Text.Unprinted

/-!
# Text shown in messages

A message that quotes a text shows it between double quotes. Quotes and
backslashes have a backslash before them, as have the letters that stand for a
tab, the ends of lines and the null character; a character without a mark of
its own is shown as its code point in braces.
-/

namespace Reattempt.Text

/-- The digits of a number below `16 ^ (fuel + 1)` in base 16, without zeros in front. -/
def hexDigits : Nat → Nat → List Char
  | 0, n => [Nat.digitChar (n % 16)]
  | fuel + 1, n => if n < 16 then [Nat.digitChar n] else hexDigits fuel (n / 16) ++ [Nat.digitChar (n % 16)]

namespace Quoted

/-- How a character is shown between quotes. -/
def shown (c : Char) : List Char :=
  if c = '"' ∨ c = '\\' then ['\\', c]
  else if c = '\t' then ['\\', 't']
  else if c = '\n' then ['\\', 'n']
  else if c = '\r' then ['\\', 'r']
  else if c.toNat = 0 then ['\\', '0']
  else if isUnprinted c then ['\\', 'u', '\x7b'] ++ hexDigits 5 c.toNat ++ ['\x7d']
  else [c]

/-- A text between quotes. -/
def quote (s : String) : String :=
  String.ofList ('"' :: s.toList.flatMap shown ++ ['"'])

end Quoted

end Reattempt.Text
