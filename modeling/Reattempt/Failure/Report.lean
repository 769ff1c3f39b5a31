import Reattempt.Failure.Aggregate
import Reattempt.Json.Read
import Reattempt.Json.Write

/-!
# Reports on aggregates

A report holds the texts of an aggregate's members and of the critical one. As
a document it leaves out what is absent or empty, and reading takes what is
left out as absent or empty.
-/

namespace Reattempt

open Json

structure Report where
  critical : Option String
  errors : List String
deriving DecidableEq

def Aggregate.report (a : Aggregate) : Report :=
  ⟨a.criticalMember?.map Error.text, a.list⟩

namespace Report

def empty : Report := ⟨none, []⟩

def write (r : Report) : String :=
  let critical := r.critical.toList.map fun s => ("critical", writeString s)
  let errors := if r.errors.isEmpty then [] else [("errors", writeArray (r.errors.map writeString))]
  String.ofList (writeObject (critical ++ errors))

/-- The fields given so far. -/
structure Fields where
  critical : Option (Option String)
  errors : Option (List String)
deriving DecidableEq

def Fields.report (f : Fields) : Report := ⟨f.critical.getD none, f.errors.getD []⟩

/-- The fields in the order in which an array gives them. -/
def slots (round : Rounding) : Slots Fields :=
  [.optional "critical" (·.critical) (fun s f => { f with critical := some s })
     (Node.optionalText round),
   .optional "errors" (·.errors) (fun es f => { f with errors := some es })
     (Node.list round (Node.text round))]

def reader (round : Rounding) : Reader Report := fun n =>
  Fields.report <$> n.record round "struct ErrorReport" (slots round) ⟨none, none⟩

def read (text : String) : Except ReadError Report := readText (reader Numeral.nearest) text

end Report

/-- An aggregate is written as its report. -/
def Aggregate.write (a : Aggregate) : String := a.report.write

end Reattempt
