import Reattempt.Audience.Delivery
import Reattempt.Backoff.Generator
import Reattempt.Rehearsal.Script

/-!
# A world with a clock that is set by hand

Campaigns are rehearsed in a world whose clock shows milliseconds and moves
only when it is told to. There is one token from which all others descend;
actors make scripted attempts on it or on a child of their own; whatever
happens is written into one log. Only so many waits may end before everything
else has had its turn. A panic that nobody stops ends everything.
-/

namespace Reattempt.Rehearsal

open Audience Backoff

inductive Entry where
  | call (who : String) (n : Nat) (cancelled : Bool)
  | interrupted (who : String) (n : Nat)
  | draw (source : String) (d : Duration)
  | cancel (token : Option Nat)
  | done (who : Option String)
  | note (n : Note)
deriving DecidableEq

/-- An entry with the time of the clock. -/
structure Stamped where
  time : Nat
  entry : Entry
deriving DecidableEq

/-- An attempt in flight, and the time of the clock at which it began. -/
structure Flight (α ε : Type) where
  attempt : Attempt α ε
  begun : Nat

/-- When the wait of an attempt that sleeps is over. -/
def Flight.due? {α ε : Type} (f : Flight α ε) : Option Nat :=
  match f.attempt.wait with
  | .sleep d => some (f.begun + d.ceilMillis)
  | _ => none

structure Actor (α ε : Type) where
  name : String
  /-- It acts on a token of its own. -/
  ownToken : Bool
  script : Script α ε
  audience : Subscriber
  calls : Nat
  flight : Option (Flight α ε)

/-- A generator that several campaigns may draw from, with its name in the log. -/
structure Pool where
  name : String
  generator : Generator

/-- How many waits may end in one round. -/
def perRound : Nat := 128

structure World (α ε : Type) where
  clock : Nat
  /-- How many waits may still end in this round. -/
  allowance : Nat
  /-- Whether the token of all is cancelled. -/
  root : Bool
  /-- The actors whose own tokens are cancelled. -/
  severed : List Nat
  actors : Array (Actor α ε)
  pool : Option Pool
  /-- The number of the next event. -/
  serial : UInt64
  seed : UInt64
  log : Array Stamped
  crash : Option Payload

namespace World

variable {α ε : Type}

/-- The world in which nothing has happened yet. -/
def initial (actors : List (Actor α ε)) (pool : Option Pool) : World α ε :=
  { clock := 0, allowance := perRound, root := false, severed := [], actors := actors.toArray, pool, serial := 0,
    seed := 1, log := #[], crash := none }

def write (w : World α ε) (e : Entry) : World α ε :=
  { w with log := w.log.push ⟨w.clock, e⟩ }

def writeAll (w : World α ε) (es : List Entry) : World α ε := es.foldl write w

def update (w : World α ε) (i : Nat) (f : Actor α ε → Actor α ε) : World α ε :=
  { w with actors := w.actors.modify i f }

/-! ## Waits -/

/-- A new round begins. -/
def nextRound (w : World α ε) : World α ε := { w with allowance := perRound }

/-- Whether no wait may end any more in this round. -/
def isExhausted (w : World α ε) : Bool := w.allowance = 0

/-- Ends a wait until a time of the clock, which uses up some of the allowance even if the
wait had no length. -/
def wake (due : Nat) (w : World α ε) : Option (World α ε) :=
  match w.allowance with
  | 0 => none
  | n + 1 => if due ≤ w.clock then some { w with allowance := n } else none

theorem allowance_of_wake {w v : World α ε} {due : Nat} (h : w.wake due = some v) :
    w.allowance = v.allowance + 1 ∧ due ≤ w.clock := by
  cases ha : w.allowance with
  | zero => simp [wake, ha] at h
  | succ n =>
    by_cases hd : due ≤ w.clock
    · simp only [wake, ha, hd, if_true, Option.some.injEq] at h
      subst h
      exact ⟨rfl, hd⟩
    · simp [wake, ha, hd] at h

/-! ## Tokens -/

def hasOwnToken (w : World α ε) (i : Nat) : Bool := (w.actors[i]?.map (·.ownToken)).getD false

/-- Whether the token of actor `i` is cancelled. -/
def isCancelled (w : World α ε) (i : Nat) : Bool :=
  w.root || (w.hasOwnToken i && w.severed.contains i)

/-- Cancels the token of an actor, or of all. An actor without one of its own acts on that
of all. -/
def cancel (w : World α ε) : Option Nat → World α ε
  | some i => if w.hasOwnToken i then { w with severed := i :: w.severed } else { w with root := true }
  | none => { w with root := true }

/-! ## Attempts -/

/-- Makes room for a new attempt of actor `i`. -/
def clear (i : Nat) (w : World α ε) : World α ε := w.update i fun a => { a with flight := none }

/-- Begins the next attempt of actor `i`. -/
def call (w : World α ε) (i : Nat) (a : Actor α ε) (cancelled : Bool) :
    Flight α ε × World α ε :=
  let (attempt, script) := a.script.next
  let flight := ⟨attempt, w.clock⟩
  let w := w.update i fun a => { a with script, calls := a.calls + 1, flight := some flight }
  (flight, w.write (.call a.name (a.calls + 1) cancelled))

/-- What an attempt answers when it is polled, and whether it has cancelled its token. -/
structure Answer (α ε : Type) where
  ending : Option (Ending α ε)
  cancelsOwn : Bool

def Answer.pending : Answer α ε := ⟨none, false⟩

/-- Ends the wait of an attempt; one that does not wait needs nothing for that. -/
def endWait (w : World α ε) (f : Flight α ε) : Option (World α ε) :=
  if f.attempt.wait = .no then some w else f.due?.bind w.wake

/-- The attempt in flight of actor `i`, which begins now if there is none. -/
def takeOff (w : World α ε) (i : Nat) (a : Actor α ε) (cancelled : Bool) :
    Flight α ε × World α ε :=
  match a.flight with
  | some flight => (flight, w)
  | none => w.call i a cancelled

/-- What the end of a wait brings: the attempt ends, and cancels first what it is to cancel. -/
def land (w : World α ε) (i : Nat) (f : Flight α ε) : Answer α ε × World α ε :=
  match f.attempt.cancels with
  | none => (⟨some f.attempt.ending, false⟩, w)
  | some .attempt => (⟨some f.attempt.ending, true⟩, w)
  | some .campaign => (⟨some f.attempt.ending, false⟩, w.cancel (some i))

/-- Lets an attempt of actor `i` go on. One that heeds its cancellation is left alone while no
wait may end. -/
def goOn (w : World α ε) (i : Nat) (who : String) (f : Flight α ε) (cancelled : Bool) :
    Answer α ε × World α ε :=
  if f.attempt.onCancel.isSome && w.isExhausted then (.pending, w)
  else
    match if cancelled then f.attempt.onCancel else none with
    | some ending =>
      let calls := (w.actors[i]?.map (·.calls)).getD 0
      (⟨some ending, false⟩, w.write (.interrupted who calls))
    | none =>
      match w.endWait f with
      | none => (.pending, w)
      | some w => w.land i f

/-- Lets the attempt in flight of actor `i` go on, beginning one if there is none. -/
def poll (i : Nat) (cancelled : Bool) (w : World α ε) : Answer α ε × World α ε :=
  match w.actors[i]? with
  | none => (.pending, w)
  | some a =>
    let (flight, w) := w.takeOff i a cancelled
    w.goOn i a.name flight cancelled

/-- When the attempt in flight of actor `i` is over. -/
def flightDue (w : World α ε) (i : Nat) : List Nat :=
  ((w.actors[i]?.bind (·.flight)).bind Flight.due?).toList

/-! ## Events, delays and chance -/

/-- Publishes a notice to the audience of actor `i`. -/
def publish (i : Nat) (n : Notice) (w : World α ε) : World α ε :=
  match w.actors[i]? with
  | none => w
  | some a =>
    let (o, serial) := Audience.publish n a.audience w.serial
    let w := w.writeAll ((o.deliveries.flatMap Delivery.notes).map .note)
    { w with serial, crash := w.crash.or (o.panic.map Panic.payload) }

/-- Some numbers, different ones each time. -/
def roll (w : World α ε) : Rolls × World α ε :=
  let mix (n : UInt64) : UInt64 :=
    let n := (n ^^^ (n >>> 30)) * 0xBF58476D1CE4E5B9
    let n := (n ^^^ (n >>> 27)) * 0x94D049BB133111EB
    n ^^^ (n >>> 31)
  (fun i => (mix (w.seed + 0x9E3779B97F4A7C15 * i.toUInt64)).toNat, { w with seed := mix w.seed })

/-- An answer of the pool's generator. -/
def ask {β : Type} [Inhabited β] (question : Generator → β × Generator) (w : World α ε) :
    β × World α ε :=
  match w.pool with
  | none => (default, w)
  | some pool =>
    let (answer, generator) := question pool.generator
    (answer, { w with pool := some { pool with generator } })

/-- The pool as a source of delays; each draw is written down. -/
def source : Source (World α ε) where
  next rolls w :=
    let (d, w) := w.ask (Generator.next rolls)
    (d, w.write (.draw ((w.pool.map (·.name)).getD "") d))
  peek w := w.ask Generator.peek
  peekSeconds w := w.ask Generator.peekSeconds

def pause (d : Duration) (w : World α ε) : World α ε :=
  w.write (.note (.line (.backingOff d)))

end World

end Reattempt.Rehearsal
