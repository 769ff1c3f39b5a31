import Reattempt.Text.Digits

/-!
# Lexemes of JSON text

A text is cut into lexemes up to the first place where none begins; what stands
there is `junk`, and nothing follows it. A string keeps its characters only if
its escapes name characters: an unpaired surrogate is a lexeme, but no text. A
number keeps its digits, where the point stands among them, its exponent and
whether it was written as an integer; what number that is, is not decided here.
-/

namespace Reattempt.Json

open Text

/-- A number as it was written: `digits * 10 ^ (exponent - places)` with its sign. -/
structure Numeral where
  negative : Bool
  digits : Nat
  /-- How many of the digits stand behind the point. -/
  places : Nat
  exponent : Int
  /-- Written without fraction and exponent. -/
  whole : Bool
deriving DecidableEq

inductive Token where
  | arrayOpen
  | arrayClose
  | objectOpen
  | objectClose
  | comma
  | colon
  | null
  | bool (b : Bool)
  | number (n : Numeral)
  | string (s : Option String)
  | junk
deriving DecidableEq

namespace Token

def isBlank (c : Char) : Bool := c = ' ' || c = '\t' || c = '\n' || c = '\r'

/-- What follows `word`, if the text begins with it. -/
def after? : List Char → List Char → Option (List Char)
  | [], cs => some cs
  | _ :: _, [] => none
  | w :: ws, c :: cs => if w = c then after? ws cs else none

/-! ## Numbers -/

/-- The longest run of digits and what follows it. -/
def digitRun (cs : List Char) : List Char × List Char :=
  (cs.takeWhile Char.isDigit, cs.dropWhile Char.isDigit)

/-- The digits before the point: a zero stands alone. -/
def wholePart? (cs : List Char) : Option (List Char × List Char) :=
  match digitRun cs with
  | ([], _) => none
  | ('0' :: _ :: _, _) => none
  | run => some run

/-- The digits behind a point, of which there must be one. -/
def fraction? : List Char → Option (List Char × List Char)
  | '.' :: cs =>
    match digitRun cs with
    | ([], _) => none
    | run => some run
  | cs => some ([], cs)

/-- An exponent, if an exponent mark stands here; its digits must follow. -/
def exponent? : List Char → Option (Option Int × List Char)
  | [] => some (none, [])
  | mark :: cs =>
    if mark = 'e' ∨ mark = 'E' then
      let (negative, cs) :=
        match cs with
        | '-' :: cs => (true, cs)
        | '+' :: cs => (false, cs)
        | cs => (false, cs)
      match digitRun cs with
      | ([], _) => none
      | (ds, rest) =>
        let n : Int := Digits.toNat ds
        some (some (if negative then -n else n), rest)
    else some (none, mark :: cs)

/-- A number without its sign. -/
def unsigned? (negative : Bool) (cs : List Char) : Option (Token × List Char) := do
  let (whole, cs) ← wholePart? cs
  let (fraction, cs) ← fraction? cs
  let (exponent, cs) ← exponent? cs
  let numeral : Numeral :=
    { negative
      digits := Digits.toNat (whole ++ fraction)
      places := fraction.length
      exponent := exponent.getD 0
      whole := fraction.isEmpty && exponent.isNone }
  some (.number numeral, cs)

/-! ## Strings -/

def hexValue? (c : Char) : Option Nat :=
  if '0' ≤ c ∧ c ≤ '9' then some (c.toNat - 48)
  else if 'a' ≤ c ∧ c ≤ 'f' then some (c.toNat - 87)
  else if 'A' ≤ c ∧ c ≤ 'F' then some (c.toNat - 55)
  else none

/-- A piece of a string: a character or an escaped 16-bit unit. -/
inductive Piece where
  | char (c : Char)
  | unit (n : Nat)
deriving DecidableEq

/-- The character that a letter behind a backslash stands for. -/
def letter? : Char → Option Char
  | '"' => some '"'
  | '\\' => some '\\'
  | '/' => some '/'
  | 'b' => some '\x08'
  | 'f' => some '\x0c'
  | 'n' => some '\n'
  | 'r' => some '\r'
  | 't' => some '\t'
  | _ => none

/-- The pieces up to the closing quote and what follows it. -/
def pieces? : List Char → Option (List Piece × List Char)
  | [] => none
  | '"' :: cs => some ([], cs)
  | '\\' :: 'u' :: a :: b :: c :: d :: cs => do
    let a ← hexValue? a
    let b ← hexValue? b
    let c ← hexValue? c
    let d ← hexValue? d
    let (ps, rest) ← pieces? cs
    some (.unit (4096 * a + 256 * b + 16 * c + d) :: ps, rest)
  | '\\' :: l :: cs => do
    let c ← letter? l
    let (ps, rest) ← pieces? cs
    some (.char c :: ps, rest)
  | c :: cs =>
    if c.toNat < 32 ∨ c = '\\' then none
    else do
      let (ps, rest) ← pieces? cs
      some (.char c :: ps, rest)

def isLead (n : Nat) : Bool := 0xD800 ≤ n && n < 0xDC00

def isTrail (n : Nat) : Bool := 0xDC00 ≤ n && n < 0xE000

/-- The characters that pieces name: two surrogates in order make one, alone they name none. -/
def characters? : List Piece → Option (List Char)
  | [] => some []
  | .char c :: ps => (characters? ps).map (c :: ·)
  | .unit n :: .unit m :: ps =>
    if isLead n then
      if isTrail m then
        (characters? ps).map (Char.ofNat (0x10000 + 0x400 * (n - 0xD800) + (m - 0xDC00)) :: ·)
      else none
    else if isTrail n then none
    else (characters? (.unit m :: ps)).map (Char.ofNat n :: ·)
  | .unit n :: ps =>
    if isLead n || isTrail n then none
    else (characters? ps).map (Char.ofNat n :: ·)

/-! ## Texts -/

/-- The lexeme that begins with `c`, and what follows it. -/
def lexeme? (c : Char) (cs : List Char) : Option (Token × List Char) :=
  match c with
  | '[' => some (.arrayOpen, cs)
  | ']' => some (.arrayClose, cs)
  | '\x7b' => some (.objectOpen, cs)
  | '\x7d' => some (.objectClose, cs)
  | ',' => some (.comma, cs)
  | ':' => some (.colon, cs)
  | 'n' => (after? ['u', 'l', 'l'] cs).map (.null, ·)
  | 't' => (after? ['r', 'u', 'e'] cs).map (.bool true, ·)
  | 'f' => (after? ['a', 'l', 's', 'e'] cs).map (.bool false, ·)
  | '"' => (pieces? cs).map fun (ps, rest) => (.string ((characters? ps).map String.ofList), rest)
  | '-' => unsigned? true cs
  | c => unsigned? false (c :: cs)

/-- The lexemes of a text of at most `fuel` characters. -/
def scan : Nat → List Char → List Token
  | _, [] => []
  | 0, _ :: _ => [.junk]
  | fuel + 1, c :: cs =>
    if isBlank c then scan fuel cs
    else
      match lexeme? c cs with
      | some (t, rest) => t :: scan fuel rest
      | none => [.junk]

/-- The lexemes of a text; each takes a character at least. -/
def ofText (cs : List Char) : List Token := scan cs.length cs

end Token

end Reattempt.Json
