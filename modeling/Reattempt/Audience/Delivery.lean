import Reattempt.Audience.Subscriber

/-!
# Delivery to subscribers

A set hands an event to its members in order. If a member panics, the set
stops the panic, reports it in a new event to all its other members, throws
away what the panic carried and then goes on; a report over which a member
panics is not reported again. Only a listener that stands alone lets its panic
through.

Nothing stops a panic that comes of the throwing away: the set breaks off and
lets it through, to the set that it is a member of, if there is one. And where
a panic is on its way already, throwing away something brittle ends the process.
-/

namespace Reattempt.Audience

variable {B : Type}

/-- What became of handing out an event. -/
inductive Delivery (B : Type := Empty) where
  /-- A listener was handed the event. Its place says where it stands, innermost first. -/
  | received (place : List Nat) (l : Listener B) (e : Event)
  | stopped (name info : String)

/-- What is written down about a delivery. -/
def Delivery.notes : Delivery B → List Note
  | .received _ l e => l.notes e
  | .stopped name info => [.line (.panicked name info)]

/-- A panic that nobody has stopped. -/
inductive Panic (B : Type := Empty) where
  | unwinding (p : Payload B)
  /-- It met something brittle on its way. -/
  | abort (b : B)

/-- The deliveries, in order, and the panic that was let through. -/
structure Outcome (B : Type := Empty) where
  deliveries : List (Delivery B)
  panic : Option (Panic B)

/-- Where nothing is brittle, a panic carries a payload. -/
def Panic.payload : Panic → Payload
  | .unwinding p => p

namespace Outcome

def nothing : Outcome B := ⟨[], none⟩

/-- What comes next comes only if no panic was let through. -/
def andThen (o next : Outcome B) : Outcome B :=
  match o.panic with
  | none => ⟨o.deliveries ++ next.deliveries, next.panic⟩
  | some _ => o

end Outcome

/-- A listener is handed an event. -/
def Listener.hear (place : List Nat) (e : Event) (l : Listener B) : Outcome B :=
  ⟨[.received place l e], (l.reaction e).map .unwinding⟩

variable [Brittle B]

/-- The panic that is on its way when a payload has been thrown away, which may have happened
because another one was. -/
def Payload.discard (p : Payload B) (panic : Option (Panic B)) : Option (Panic B) :=
  match p, panic with
  | .brittle b, none => some (.unwinding (Brittle.left b))
  | .brittle b, some (.unwinding _) => some (.abort b)
  | _, panic => panic

/-- The set that holds `m` stops its panic, reports it, and throws away what it carried. -/
def Outcome.caught (o : Outcome B) (m : Subscriber B) (report : Payload B → Outcome B) :
    Outcome B :=
  match o.panic with
  | some (.unwinding p) =>
    ⟨o.deliveries ++ .stopped m.name p.info :: (report p).deliveries,
      p.discard (report p).panic⟩
  | _ => o

mutual

/-- Hands out an event about which nothing is reported. -/
def relay (e : Event) (place : List Nat) : Subscriber B → Outcome B
  | .listener l => l.hear place e
  | .set members => relayAll e place none 0 members

/-- To each member, the first of them at position `i`, but not to the one at `skip`. -/
def relayAll (e : Event) (place : List Nat) (skip : Option Nat) (i : Nat) :
    List (Subscriber B) → Outcome B
  | [] => .nothing
  | m :: ms =>
    let here :=
      if skip = some i then .nothing
      else (relay e (i :: place) m).caught m fun _ => .nothing
    here.andThen (relayAll e place skip (i + 1) ms)

end

/-- The report that the member `m` failed with `p`. -/
def panicReport (serial : UInt64) (m : Subscriber B) (p : Payload B) : Event :=
  { Notice.subscriberPanicked m.name p.info with seq := serial }

/-- What a set of members does after the one at position `i` was handed an event. -/
def reportPanic (members : List (Subscriber B)) (place : List Nat) (i : Nat) (m : Subscriber B)
    (o : Outcome B) (serial : UInt64) : Outcome B × UInt64 :=
  (o.caught m fun p => relayAll (panicReport serial m p) place (some i) 0 members,
    match o.panic with
    | some (.unwinding _) => serial + 1
    | _ => serial)

mutual

/-- Hands out an event; `serial` is the number of the next report. -/
def announce (e : Event) (place : List Nat) : Subscriber B → UInt64 → Outcome B × UInt64
  | .listener l, serial => (l.hear place e, serial)
  | .set members, serial => announceAll e place members 0 members serial

/-- To each member of a set, the first of them at position `i`. -/
def announceAll (e : Event) (place : List Nat) (all : List (Subscriber B)) (i : Nat) :
    List (Subscriber B) → UInt64 → Outcome B × UInt64
  | [], serial => (.nothing, serial)
  | m :: ms, serial =>
    let (o, serial) := announce e (i :: place) m serial
    let (o, serial) := reportPanic all place i m o serial
    match o.panic with
    | some _ => (o, serial)
    | none =>
      let (rest, serial) := announceAll e place all (i + 1) ms serial
      (o.andThen rest, serial)

end

/-- Hands an event to a subscriber. -/
def deliver (e : Event) (s : Subscriber B) (serial : UInt64) : Outcome B × UInt64 :=
  if e.isPanicReport then (relay e [] s, serial) else announce e [] s serial

/-- Numbers a notice and hands it to a subscriber. -/
def publish (n : Notice) (s : Subscriber B) (serial : UInt64) : Outcome B × UInt64 :=
  deliver { n with seq := serial } s (serial + 1)

end Reattempt.Audience
