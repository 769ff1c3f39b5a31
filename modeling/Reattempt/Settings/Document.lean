import Reattempt.Json.Read
import Reattempt.Json.Write
import Reattempt.Settings.Fields

/-!
# Settings as documents

Settings are written as an object of four fields, durations in milliseconds,
and read from such an object, in any order and with any of them missing, or
from an array of the four values.
-/

namespace Reattempt.Settings

open Backoff Json Number

section Readers

variable (round : Rounding)

def readMillis : Reader Duration
  | .number n =>
    (n.value? round).elim (.error .malformed) fun v =>
      (Duration.ofMillisValue v).mapError .refused
  | n => n.mismatch round expectedMillis

def readJitter : Reader Jitter := Node.variant round jitterNames Jitter.ofLabel?

/-- The slots of settings in a document. -/
def slots : Slots Fields := Fields.slots (readMillis round) (readJitter round)

def reader : Reader Settings := fun n =>
  Fields.settings <$> n.record round "struct RetryConfig" (slots round) .empty

/-- Reads settings, with numerals rounded in some way. -/
def readRounded (text : String) : Except ReadError Settings := readText (reader round) text

end Readers

def read (text : String) : Except ReadError Settings := readRounded Numeral.nearest text

def writeMillis (d : Duration) : List Char :=
  (d.toMillisValue.write .document).toList

def write (s : Settings) : String :=
  String.ofList <| writeObject
    [(baseName, writeMillis s.base),
     (ceilingName, writeMillis s.ceiling),
     (deadlineName, writeMillis s.deadline),
     (jitterName, writeString s.jitter.label)]

end Reattempt.Settings
