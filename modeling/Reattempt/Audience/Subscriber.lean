import Reattempt.Event.Line

/-!
# Subscribers

A listener takes each event it is handed: it writes something down, and it may
panic. A set hands events on to its members and is a subscriber itself, so
subscribers form trees.

A panic may carry anything. Of that, texts matter, which can be told to others,
and what panics once more when it is thrown away: what is brittle in this way
is a parameter of all that follows, and by default nothing is.
-/

namespace Reattempt.Audience

/-- What a panic carries. -/
inductive Payload (B : Type := Empty) where
  | text (s : String)
  | other
  /-- Throwing this away panics. -/
  | brittle (b : B)
deriving DecidableEq

/-- What the panic carries that comes of throwing away something brittle. -/
class Brittle (B : Type) where
  left : B → Payload B

instance : Brittle Empty := ⟨nofun⟩

section Payloads

variable {B : Type}

/-- What is said about a panic. -/
def Payload.info : Payload B → String
  | .text s => s
  | .other | .brittle _ => "unknown panic"

/-- What a listener writes down. -/
inductive Note where
  | heard (listener : String) (e : Event)
  | line (l : Line)
deriving DecidableEq

/-- What a listener does with an event. It writes first and panics then. -/
structure Listener (B : Type := Empty) where
  name : String
  notes : Event → List Note
  reaction : Event → Option (Payload B)

inductive Subscriber (B : Type := Empty) where
  | listener (l : Listener B)
  | set (members : List (Subscriber B))

namespace Subscriber

def name : Subscriber B → String
  | .listener l => l.name
  | .set _ => "SubscriberSet"

/-- Writes down every event under its own name. -/
def recorder (id : String) : Subscriber B :=
  .listener ⟨id, fun e => [.heard id e], fun _ => none⟩

/-- Writes a line for every event. -/
def logger : Subscriber B :=
  .listener ⟨"LogWriter", fun e => [.line e.line], fun _ => none⟩

/-- Listens to nothing. -/
def silent : Subscriber B :=
  .listener ⟨"Noop", fun _ => [], fun _ => none⟩

/-- Writes down every event as `id` and panics over those of some kinds. -/
def faulty (name id : String) (panics : EventKind → Bool) (payload : Payload B) : Subscriber B :=
  .listener
    ⟨name, fun e => [.heard id e], fun e => if panics e.kind then some payload else none⟩

end Subscriber

end Payloads

end Reattempt.Audience
