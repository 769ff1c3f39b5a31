import Reattempt.Duration.Text

/-!
# Events of campaigns

What a campaign has to say is a notice: its kind, and what belongs to that kind.
A notice becomes an event when it gets its number. Numbers are given out in
order, over all campaigns, and a number is used up even if nobody listens.
-/

namespace Reattempt

inductive EventKind where
  | attemptStarting
  | connected
  | backoffScheduled
  | connectFailed
  | canceled
  | deadlineExceeded
  | subscriberPanicked
deriving DecidableEq

namespace EventKind

def label : EventKind → String
  | .attemptStarting => "attempt_starting"
  | .connected => "connected"
  | .backoffScheduled => "backoff_scheduled"
  | .connectFailed => "connect_failed"
  | .canceled => "canceled"
  | .deadlineExceeded => "deadline_exceeded"
  | .subscriberPanicked => "subscriber_panicked"

def all : List EventKind :=
  [.attemptStarting, .connected, .backoffScheduled, .connectFailed, .canceled, .deadlineExceeded,
   .subscriberPanicked]

def ofLabel? (s : String) : Option EventKind := all.find? (·.label == s)

/-- The kinds after which a campaign has nothing more to say. -/
def isTerminal : EventKind → Bool
  | .connected | .connectFailed | .canceled | .deadlineExceeded => true
  | _ => false

end EventKind

/-- What happened, with what is known about it. -/
structure Notice where
  kind : EventKind
  connector : Option String := none
  attempt : Option UInt32 := none
  delay : Option Duration := none
  retryInSeconds : Option UInt64 := none
  reason : Option String := none
deriving DecidableEq

namespace Notice

def ofKind (kind : EventKind) : Notice := { kind }

def withConnector (n : Notice) (name : String) : Notice := { n with connector := some name }

def withAttempt (n : Notice) (k : UInt32) : Notice := { n with attempt := some k }

/-- A delay brings its whole seconds with it. -/
def withDelay (n : Notice) (d : Duration) : Notice :=
  { n with delay := some d, retryInSeconds := some d.secs }

def withRetryInSeconds (n : Notice) (s : UInt64) : Notice := { n with retryInSeconds := some s }

def withReason (n : Notice) (text : String) : Notice := { n with reason := some text }

/-- The report that a subscriber failed over an event. -/
def subscriberPanicked (name info : String) : Notice :=
  ((ofKind .subscriberPanicked).withConnector name).withReason info

end Notice

/-- A notice with its number. -/
structure Event extends Notice where
  seq : UInt64
deriving DecidableEq

namespace Event

def isPanicReport (e : Event) : Bool := e.kind = .subscriberPanicked

end Event

end Reattempt
