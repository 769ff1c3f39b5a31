import Reattempt.Number.Value
import Reattempt.Text.Quoted

/-!
# Why data is refused

Data can be malformed, or it can be well formed and still not be what was asked
for. A refusal names its cause; its wording is made in one place and differs
between formats only in what they call nothing.
-/

namespace Reattempt

open Number

/-- What was found where something else was expected. -/
inductive Found where
  | number (v : Value)
  | boolean (b : Bool)
  | text (s : String)
  | nothing
  | sequence
  | map
deriving DecidableEq

inductive Refusal where
  | wrongType (found : Found) (expected : String)
  | duplicateField (name : String)
  | unknownVariant (name : String) (expected : List String)
  | negativeMillis (ms : Int64)
  | invalidMillis (ms : Binary)
  | millisOutOfRange (ms : Binary)
deriving DecidableEq

/-- Why reading failed. -/
inductive ReadError where
  | malformed
  | refused (r : Refusal)
deriving DecidableEq

/-- A value in the words of a format that has its own for nothing. -/
def Found.describe (nothing : String) : Found → String
  | .number (.floating x) => "floating point `" ++ Layout.document.write x ++ "`"
  | .number v => "integer `" ++ v.write .document ++ "`"
  | .boolean b => "boolean `" ++ (if b then "true" else "false") ++ "`"
  | .text s => "string " ++ Text.Quoted.quote s
  | .nothing => nothing
  | .sequence => "sequence"
  | .map => "map"

def Refusal.message (nothing : String) : Refusal → String
  | .wrongType found expected =>
    "invalid type: " ++ found.describe nothing ++ ", expected " ++ expected
  | .duplicateField name => "duplicate field `" ++ name ++ "`"
  | .unknownVariant name expected =>
    "unknown variant `" ++ name ++ "`, expected one of "
      ++ String.intercalate ", " (expected.map fun s => "`" ++ s ++ "`")
  | .negativeMillis ms => "negative duration: " ++ toString ms.toInt ++ "ms"
  | .invalidMillis ms => "invalid duration: " ++ Layout.message.write ms ++ "ms"
  | .millisOutOfRange ms => "duration out of range: " ++ Layout.message.write ms ++ "ms"

end Reattempt
