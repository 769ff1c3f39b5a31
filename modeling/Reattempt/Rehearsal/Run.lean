import Reattempt.Rehearsal.Job

/-!
# Rehearsals

At each instant everything that can go on does so, in rounds: first the
scheduled cancellations and then the jobs in order, or the other way round,
until nothing moves. When no more waits may end in a round, whatever looks at one
is left for the next. Then the clock jumps to the first time at which something
wants to go on. A rehearsal ends when all jobs are done, when a panic was let
through, after one round at the last time of the clock, or when the clock would
pass that.
-/

namespace Reattempt.Rehearsal

variable {α ε σ : Type}

/-- A cancellation some time after the beginning. -/
structure Cancellation where
  after : Duration
  token : Option Nat
deriving DecidableEq

/-- The time of the clock at which it is made. -/
def Cancellation.time (c : Cancellation) : Nat := c.after.ceilMillis

/-- What is fixed before a rehearsal begins. -/
structure Plan where
  /-- Cancellations come after the jobs of a round. -/
  cancelLast : Bool
  /-- A job begins when the one before it is done. -/
  sequential : Bool
  /-- The last time of the clock. -/
  lastTime : Nat
deriving DecidableEq

structure Stage (σ α ε : Type) where
  jobs : List σ
  cancellations : List Cancellation
  world : World α ε

/-- How a rehearsal ended: the last time of the clock stands for one that never did. -/
structure Ended (σ α ε : Type) where
  stage : Stage σ α ε
  time : Nat
  hung : Bool

/-- Ends the wait for a cancellation; for one at the beginning there is none. -/
def Cancellation.reach (c : Cancellation) (w : World α ε) : Option (World α ε) :=
  if c.after.isZero then some w else w.wake c.time

/-- Makes the cancellations whose time has come. -/
def cancelDue : List Cancellation → World α ε → List Cancellation × World α ε
  | [], w => ([], w)
  | c :: cs, w =>
    match c.reach w with
    | some w => cancelDue cs ((w.write (.cancel c.token)).cancel c.token)
    | none => (c :: cs, w)

/-- A step of a job, unless the world has crashed or lets no wait end where the job is at one. -/
def guarded (job : Job σ (World α ε)) (s : σ) (w : World α ε) : Progress σ (World α ε) :=
  if w.crash.isSome || (w.isExhausted && job.atWait s) then .waiting s w else job.step s w

/-- Lets a job go on until it waits. -/
def advance (fuel : Nat) (job : Job σ (World α ε)) (s : σ) (w : World α ε) :
    Progress σ (World α ε) :=
  let p := guarded job s w
  let (s, w) := (settle (guarded job) fuel p.state p.world).getD (p.state, p.world)
  ⟨p.moved, s, w⟩

/-- Lets the jobs go on in order; a sequential rehearsal stops at the first that is not done. -/
def advanceAll (fuel : Nat) (job : Job σ (World α ε)) (sequential : Bool) :
    List σ → World α ε → Progress (List σ) (World α ε)
  | [], w => .waiting [] w
  | s :: ss, w =>
    let p := advance fuel job s w
    if sequential && !job.isDone p.state then p.map (· :: ss)
    else
      let q := advanceAll fuel job sequential ss p.world
      ⟨p.moved || q.moved, p.state :: q.state, q.world⟩

def Stage.isOver (job : Job σ (World α ε)) (s : Stage σ α ε) : Bool :=
  s.jobs.all job.isDone || s.world.crash.isSome

def Stage.cancel (s : Stage σ α ε) : Bool × Stage σ α ε :=
  let (cs, w) := cancelDue s.cancellations s.world
  (cs.length < s.cancellations.length, { s with cancellations := cs, world := w })

def Stage.work (fuel : Nat) (job : Job σ (World α ε)) (plan : Plan) (s : Stage σ α ε) :
    Bool × Stage σ α ε :=
  let p := advanceAll fuel job plan.sequential s.jobs s.world
  (p.moved, { s with jobs := p.state, world := p.world })

/-- One round, and whether anything moved in it. Once all is over nothing more happens. -/
def Stage.round (fuel : Nat) (job : Job σ (World α ε)) (plan : Plan) (s : Stage σ α ε) :
    Bool × Stage σ α ε :=
  let s := { s with world := s.world.nextRound }
  if plan.cancelLast then
    let (worked, s) := s.work fuel job plan
    if s.isOver job then (true, s)
    else
      let (cancelled, s) := s.cancel
      (worked || cancelled, s)
  else
    let (cancelled, s) := s.cancel
    let (worked, s) := s.work fuel job plan
    (worked || cancelled, s)

/-- The first time at which something wants to go on, after now. -/
def Stage.next? (job : Job σ (World α ε)) (s : Stage σ α ε) : Option Nat :=
  let times := s.jobs.flatMap (job.due · s.world) ++ s.cancellations.map (·.time)
  (times.filter (s.world.clock < ·)).min?

/-- Rehearses with at most `fuel` rounds, each of at most `fuel` steps for a job. -/
def rehearse (fuel : Nat) (job : Job σ (World α ε)) (plan : Plan) :
    Nat → Stage σ α ε → Ended σ α ε
  | 0, s => ⟨s, plan.lastTime, true⟩
  | rounds + 1, s =>
    let (moved, s) := s.round fuel job plan
    if s.isOver job then ⟨s, s.world.clock, false⟩
    else if plan.lastTime ≤ s.world.clock then ⟨s, plan.lastTime, true⟩
    else if moved then rehearse fuel job plan rounds s
    else
      match s.next? job with
      | none => ⟨s, plan.lastTime, true⟩
      | some t =>
        if plan.lastTime < t then ⟨s, plan.lastTime, true⟩
        else rehearse fuel job plan rounds { s with world := { s.world with clock := t } }

/-- Enough for every rehearsal that is not caught at one instant. -/
def patience : Nat := 1000000000000

def run (job : Job σ (World α ε)) (plan : Plan) (cancellations : List Cancellation)
    (jobs : List σ) (w : World α ε) : Ended σ α ε :=
  let ordered := cancellations.mergeSort fun a b => a.after.toNanos ≤ b.after.toNanos
  rehearse patience job plan patience ⟨jobs, ordered, w⟩

end Reattempt.Rehearsal
