import Reattempt.Backoff.Fibonacci

/-!
# Callers that share a generator

Several callers draw from one Fibonacci generator whose only mutable part is
the count of moves, a single word. A draw reads the word, works out the term
and tries to move the word on from the value it read; if the word has changed,
or the attempt fails for no reason, it goes on from the value found. A draw
that finds a saturated term returns the ceiling and leaves the word alone. A
schedule is any list of such atomic steps: nothing is said about fairness.
-/

namespace Reattempt.Backoff

/-- What a caller is in the middle of. -/
inductive Caller where
  | idle
  /-- It has read the word and not yet moved it on. -/
  | drawing (observed : UInt32)
deriving DecidableEq

/-- One atomic step of one caller. -/
inductive Access where
  | load (caller : Nat)
  | swap (caller : Nat) (spurious : Bool)
  | peek (caller : Nat)
deriving DecidableEq

/-- A call that has ended, with its answer. -/
inductive Return where
  | drew (caller : Nat) (d : Duration)
  | peeked (caller : Nat) (d : Duration)
deriving DecidableEq

/-- The shared generator and its callers. -/
structure Contention where
  generator : Fibonacci
  callers : List Caller
deriving DecidableEq

namespace Contention

def start (g : Fibonacci) (callers : Nat) : Contention :=
  ⟨g, List.replicate callers .idle⟩

def setCaller (c : Contention) (i : Nat) (caller : Caller) : Contention :=
  { c with callers := c.callers.set i caller }

/-- Caller `i` goes on from the value it found: with a saturated term its draw ends. -/
def observe (c : Contention) (i : Nat) (found : UInt32) : Contention × Option Return :=
  if c.generator.isSaturated (c.generator.termAt found) then
    (c.setCaller i .idle, some (.drew i c.generator.ceiling))
  else (c.setCaller i (.drawing found), none)

/-- Steps that do not fit what the caller is doing change nothing. -/
def access (c : Contention) : Access → Contention × Option Return
  | .load i =>
    match c.callers[i]? with
    | some .idle => c.observe i c.generator.step
    | _ => (c, none)
  | .swap i spurious =>
    match c.callers[i]? with
    | some (.drawing observed) =>
      if c.generator.step = observed && !spurious then
        let moved := { c.generator with step := observed + 1 }
        ({ c with generator := moved }.setCaller i .idle,
          some (.drew i (.ofNanos (c.generator.termAt observed))))
      else c.observe i c.generator.step
    | _ => (c, none)
  | .peek i =>
    match c.callers[i]? with
    | some .idle => (c, some (.peeked i c.generator.peek))
    | _ => (c, none)

/-- The state after a schedule, and the calls that ended, in the order in which they did. -/
def run (c : Contention) : List Access → Contention × List Return
  | [] => (c, [])
  | a :: rest =>
    let (c, ended) := c.access a
    let (c, later) := c.run rest
    (c, ended.toList ++ later)

/-- A schedule in which each of `callers` callers makes `draws` draws: all begin together,
and one of them gets through in each pass. -/
def inTurns (callers draws : Nat) : List Access :=
  let loads := (List.range callers).map .load
  let swaps := (List.range callers).map (.swap · false)
  (List.replicate draws (loads ++ (List.replicate callers swaps).flatten)).flatten

end Contention

/-- The delay of a draw, if the call was one. -/
def Return.drawn? : Return → Option Duration
  | .drew _ d => some d
  | .peeked _ _ => none

end Reattempt.Backoff
