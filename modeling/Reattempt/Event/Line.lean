import Reattempt.Event

/-!
# Lines for a log

A line has a level, a topic, a message and named fields in a fixed order, each
as text. `Event.line` is what a log shows of an event; what an event does not
say is shown as unknown, zero or empty.
-/

namespace Reattempt

inductive Level where
  | debug
  | info
  | warn
  | error
deriving DecidableEq

/-- Who has something to say. -/
inductive Topic where
  | campaign
  | execution
  | delivery
deriving DecidableEq

structure Line where
  level : Level
  topic : Topic
  message : String
  fields : List (String × String)
deriving DecidableEq

namespace Event

/-- The fields that most lines begin with. -/
def place (e : Event) : List (String × String) :=
  [("seq", toString e.seq.toNat), ("connector", e.connector.getD "unknown")]

def attemptField (e : Event) : String × String :=
  ("attempt", toString (e.attempt.getD 0).toNat)

def errorField (e : Event) : String × String := ("error", e.reason.getD "")

def delayText (e : Event) : String := (e.delay.getD .zero).text

def line (e : Event) : Line :=
  match e.kind with
  | .attemptStarting => ⟨.info, .campaign, "trying to connect", e.place ++ [e.attemptField]⟩
  | .connected => ⟨.info, .campaign, "connected successfully", e.place ++ [e.attemptField]⟩
  | .backoffScheduled =>
    ⟨.warn, .campaign, "failed to connect",
      e.place ++ [e.attemptField,
        ("retry_in_seconds", toString (e.retryInSeconds.getD 0).toNat),
        ("max_delay", e.delayText), e.errorField]⟩
  | .connectFailed =>
    ⟨.error, .campaign, "failed to connect", e.place ++ [e.attemptField, e.errorField]⟩
  | .canceled => ⟨.info, .campaign, "retry canceled", e.place ++ [e.attemptField]⟩
  | .deadlineExceeded =>
    ⟨.error, .campaign, "retry deadline exceeded", e.place ++ [("deadline", e.delayText)]⟩
  | .subscriberPanicked =>
    ⟨.error, .campaign, "subscriber panicked",
      [("subscriber", e.connector.getD "unknown"), ("info", e.reason.getD "")]⟩

end Event

/-- What is said when an attempt failed for now. -/
def Line.backingOff (d : Duration) : Line :=
  ⟨.debug, .execution, "attempt failed, backing off", [("delay", d.text)]⟩

/-- What is said when a subscriber failed over an event. -/
def Line.panicked (name info : String) : Line :=
  ⟨.warn, .delivery, "subscriber panicked", [("subscriber", name), ("info", info)]⟩

end Reattempt
