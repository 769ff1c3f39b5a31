import Reattempt.Json.Node
import Reattempt.Slot

/-!
# Reading values out of documents

A reader walks a tree in text order and stops at the first fault: a broken
place is malformed, a value of another type is refused. Records are read
through their slots, in an object by key, each at most once and skipping keys
of no slot, or in an array by position, where missing ones keep their default.

Integers of 64 bits are read exactly. What floating-point number another
numeral is read as is a choice of its own, for readers that are made for speed
are now and then off by the last digit.
-/

namespace Reattempt.Json

open Number

/-- The floating-point number that a numeral is read as, if it is none of the integers. -/
abbrev Rounding := Numeral → Binary

def Numeral.nearest : Rounding := fun n =>
  .ofDecimal double n.negative n.digits (n.exponent - n.places)

/-- Integers of 64 bits, signed if they are negative, stay integers; any other numeral is
rounded to a floating-point number, which has to be finite. -/
def Numeral.value? (round : Rounding) (n : Numeral) : Option Value :=
  if n.whole ∧ ¬ n.negative ∧ n.digits < UInt64.size then some (.natural n.digits.toUInt64)
  else if n.whole ∧ n.negative ∧ 0 < n.digits ∧ n.digits ≤ UInt64.size / 2 then
    some (.signed (Int64.ofInt (-n.digits)))
  else if (round n).isFinite then some (.floating (round n))
  else none

/-- What documents call nothing. -/
def nothingName : String := "null"

abbrev Reader (α : Type) := Node → Except ReadError α

section Readers

variable (round : Rounding)

namespace Node

/-- What a value is, seen from outside: of arrays and objects only that they begin. -/
def found : Reader Found
  | .null => .ok .nothing
  | .bool b => .ok (.boolean b)
  | .number n => ((n.value? round).map fun v => .ok (.number v)).getD (.error .malformed)
  | .string s => (s.map fun s => .ok (.text s)).getD (.error .malformed)
  | .array _ => .ok .sequence
  | .object _ => .ok .map
  | .broken => .error .malformed

/-- The fault of a value that should have been something else. -/
def mismatch {α : Type} (expected : String) (n : Node) : Except ReadError α := do
  .error (.refused (.wrongType (← n.found round) expected))

def text : Reader String
  | .string (some s) => .ok s
  | n => n.mismatch round "a string"

def optionalText : Reader (Option String)
  | .null => .ok none
  | n => some <$> n.text round

end Node

/-- Each item of an array. -/
def Items.read {α : Type} (reader : Reader α) : Items → Except ReadError (List α)
  | .closed => .ok []
  | .broken => .error .malformed
  | .item value rest => do
    let a ← reader value
    let as ← rest.read reader
    .ok (a :: as)

def Node.list {α : Type} (reader : Reader α) : Reader (List α)
  | .array items => items.read reader
  | n => n.mismatch round "a sequence"

/-- Choosing one of several names, as a string or as the one key of an object with nothing
in it. -/
def Node.variant {α : Type} (names : List String) (ofName? : String → Option α) : Reader α
  | .string (some s) => choose s
  | .object (.member (some s) value rest) => do
    let a ← choose s
    match value, rest with
    | .null, .closed => .ok a
    | .null, _ => .error .malformed
    | value, _ => value.mismatch round "unit"
  | _ => .error .malformed
where
  choose (s : String) : Except ReadError α :=
    (ofName? s).elim (.error (.refused (.unknownVariant s names))) .ok

/-- The slots of a record. -/
abbrev Slots (σ : Type) := List (Slot Node ReadError σ)

def Members.fill {σ : Type} (slots : Slots σ) : Members → σ → Except ReadError σ
  | .closed, s => .ok s
  | .broken, _ => .error .malformed
  | .member none _ _, _ => .error .malformed
  | .member (some key) value rest, s =>
    match Slot.named? slots key with
    | none => if value.intact then rest.fill slots s else .error .malformed
    | some slot => do rest.fill slots (← slot.fillOnce .refused value s)

def Items.fill {σ : Type} : Slots σ → Items → σ → Except ReadError σ
  | _, .closed, s => .ok s
  | _, .broken, _ => .error .malformed
  | [], .item _ _, _ => .error .malformed
  | slot :: slots, .item value rest, s => do rest.fill slots (← slot.fill value s)

/-- A record with the given slots, starting from an empty one. -/
def Node.record {σ : Type} (expected : String) (slots : Slots σ) (empty : σ) : Reader σ
  | .object members => members.fill slots empty
  | .array items => items.fill slots empty
  | n => n.mismatch round expected

end Readers

/-- A whole text as one value. -/
def readText {α : Type} (reader : Reader α) (text : String) : Except ReadError α := do
  let document := Document.read text
  let a ← reader document.root
  if document.leftover then .error .malformed else .ok a

end Reattempt.Json
