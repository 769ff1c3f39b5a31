import Reattempt.Settings.Fields

/-!
# Settings from typed entries

Other formats hand settings over as keys with texts whose type is already
known. A duration has to be a number; a name is taken from the text, whatever
its type. Entries are taken in order; the first one that is refused decides.
-/

namespace Reattempt.Settings

open Backoff Number

/-- What a format makes of a text whose type it knows. -/
inductive Content where
  | number (v : Value)
  | boolean (b : Bool)
  | nothing
  | text
deriving DecidableEq

structure Entry where
  text : String
  content : Content
deriving DecidableEq

/-- What entries call nothing. -/
def nothingName : String := "unit value"

namespace Entry

def found (e : Entry) : Found :=
  match e.content with
  | .number v => .number v
  | .boolean b => .boolean b
  | .nothing => .nothing
  | .text => .text e.text

def millis (e : Entry) : Except Refusal Duration :=
  match e.content with
  | .number v => Duration.ofMillisValue v
  | _ => .error (.wrongType e.found expectedMillis)

def jitter (e : Entry) : Except Refusal Jitter :=
  (Jitter.ofLabel? e.text).elim (.error (.unknownVariant e.text jitterNames)) .ok

end Entry

/-- One entry more; a key that names no field is skipped. -/
def Fields.add (f : Fields) (key : String) (e : Entry) : Except Refusal Fields :=
  match Slot.named? (slots Entry.millis Entry.jitter) key with
  | none => .ok f
  | some slot => slot.fillOnce id e f

def ofEntries (entries : List (String × Entry)) : Except Refusal Settings :=
  Fields.settings <$> entries.foldlM (fun f (key, e) => f.add key e) .empty

end Reattempt.Settings
