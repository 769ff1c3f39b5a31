import Reattempt.Text.Quoted

/-!
# Writing documents

Documents are written without blanks. In strings the quote, the backslash and
the control characters are escaped, those with a letter by it and the others by
their code point in four digits; all other characters stand for themselves.
-/

namespace Reattempt.Json

/-- The letter behind a backslash for a character that has one. -/
def escapeLetter? : Char → Option Char
  | '"' => some '"'
  | '\\' => some '\\'
  | '\x08' => some 'b'
  | '\x0c' => some 'f'
  | '\n' => some 'n'
  | '\r' => some 'r'
  | '\t' => some 't'
  | _ => none

def escape (c : Char) : List Char :=
  match escapeLetter? c with
  | some l => ['\\', l]
  | none =>
    if c.toNat < 32 then
      ['\\', 'u', '0', '0', Nat.digitChar (c.toNat / 16), Nat.digitChar (c.toNat % 16)]
    else [c]

/-- A string between its quotes. -/
def writeString (s : String) : List Char :=
  '"' :: s.toList.flatMap escape ++ ['"']

/-- Values between commas. -/
def separate : List (List Char) → List Char
  | [] => []
  | [v] => v
  | v :: vs => v ++ ',' :: separate vs

def writeArray (values : List (List Char)) : List Char :=
  '[' :: separate values ++ [']']

/-- Keys with their written values. -/
def writeObject (fields : List (String × List Char)) : List Char :=
  '\x7b' :: separate (fields.map fun (key, value) => writeString key ++ ':' :: value) ++ ['\x7d']

end Reattempt.Json
