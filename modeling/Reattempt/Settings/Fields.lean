import Reattempt.Duration.Millis
import Reattempt.Settings
import Reattempt.Slot

/-!
# Settings under construction

Settings are read field by field. Each field may be given once; a field that is
not given keeps its standard value, whatever the others say.
-/

namespace Reattempt.Settings

open Backoff

/-- The fields given so far. -/
structure Fields where
  base : Option Duration
  ceiling : Option Duration
  deadline : Option Duration
  jitter : Option Jitter
deriving DecidableEq

namespace Fields

def empty : Fields := ⟨none, none, none, none⟩

def settings (f : Fields) : Settings :=
  { base := f.base.getD standard.base
    ceiling := f.ceiling.getD standard.ceiling
    deadline := f.deadline.getD standard.deadline
    jitter := f.jitter.getD standard.jitter }

end Fields

/-- The name of each field in data. -/
def baseName : String := "base_ms"

def ceilingName : String := "ceiling_ms"

def deadlineName : String := "deadline_ms"

def jitterName : String := "jitter"

/-- How a duration is asked for. -/
def expectedMillis : String := "a non-negative number of milliseconds"

def jitterNames : List String := Jitter.all.map Jitter.label

/-- The fields in the order in which they are given without names. -/
def Fields.slots {ν ρ : Type} (millis : ν → Except ρ Duration) (jitter : ν → Except ρ Jitter) :
    List (Slot ν ρ Fields) :=
  [.optional baseName (·.base) (fun d f => { f with base := some d }) millis,
   .optional ceilingName (·.ceiling) (fun d f => { f with ceiling := some d }) millis,
   .optional deadlineName (·.deadline) (fun d f => { f with deadline := some d }) millis,
   .optional jitterName (·.jitter) (fun j f => { f with jitter := some j }) jitter]

end Reattempt.Settings
