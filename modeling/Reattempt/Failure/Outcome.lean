import Reattempt.Duration.Text

/-!
# How attempts and campaigns fail

An attempt fails for now or for good; the error it failed with is kept as it
is. A campaign fails with the error of its last attempt, because it was
canceled, or because its time was up. No failure for now ends a campaign.
-/

namespace Reattempt

/-- The text of an error, and the texts of what caused it, nearest cause first. -/
class Explained (ε : Type) where
  text : ε → String
  causes : ε → List String

/-- A failed attempt. -/
inductive AttemptFailure (ε : Type) where
  | transient (e : ε)
  | fatal (e : ε)
deriving DecidableEq

namespace AttemptFailure

variable {ε : Type}

def classify (retryable : ε → Bool) (e : ε) : AttemptFailure ε :=
  if retryable e then .transient e else .fatal e

def isRetryable : AttemptFailure ε → Bool
  | .transient _ => true
  | .fatal _ => false

/-- The error without its class. -/
def inner : AttemptFailure ε → ε
  | .transient e => e
  | .fatal e => e

def label : AttemptFailure ε → String
  | .transient _ => "attempt_retryable"
  | .fatal _ => "attempt_fatal"

/-- A failed attempt is told like its error. -/
instance [Explained ε] : Explained (AttemptFailure ε) where
  text f := Explained.text f.inner
  causes f := Explained.causes f.inner

end AttemptFailure

/-- A failed campaign. -/
inductive CampaignFailure (ε : Type) where
  | fatal (e : ε)
  | canceled
  | deadlineExceeded (deadline : Duration)
deriving DecidableEq

namespace CampaignFailure

variable {ε : Type}

/-- It was stopped from outside, by its caller or by its deadline. -/
def isCanceled : CampaignFailure ε → Bool
  | .fatal _ => false
  | .canceled => true
  | .deadlineExceeded _ => true

def fatal? : CampaignFailure ε → Option ε
  | .fatal e => some e
  | _ => none

def deadline? : CampaignFailure ε → Option Duration
  | .deadlineExceeded d => some d
  | _ => none

def label : CampaignFailure ε → String
  | .fatal _ => "retry_fatal"
  | .canceled => "retry_canceled"
  | .deadlineExceeded _ => "retry_deadline_exceeded"

def canceledText : String := "retry canceled"

def deadlineText (d : Duration) : String := "retry deadline " ++ d.text ++ " exceeded"

/-- A campaign that failed with an error is told like that error. -/
instance [Explained ε] : Explained (CampaignFailure ε) where
  text
    | .fatal e => Explained.text e
    | .canceled => canceledText
    | .deadlineExceeded d => deadlineText d
  causes
    | .fatal e => Explained.causes e
    | _ => []

end CampaignFailure

end Reattempt
