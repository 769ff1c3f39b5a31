import Reattempt.Campaign.State
import Reattempt.Rehearsal.World

/-!
# Jobs

A job is what runs in a rehearsal: an operation executed a number of times, or
a number of campaigns under one brief, one after another. Jobs are machines of
small steps on the world that all of them share.
-/

namespace Reattempt.Rehearsal

open Campaign

/-- What a rehearsal needs to know of jobs with states `σ`. -/
structure Job (σ ω : Type) where
  step : σ → ω → Progress σ ω
  isDone : σ → Bool
  /-- Whether its next step looks at a wait of its own. -/
  atWait : σ → Bool
  /-- When a waiting job wants to go on by itself. -/
  due : σ → ω → List Nat

variable {α ε : Type}

/-- Rounds of something that ends with a `β`, on behalf of an actor. -/
structure Series (τ β : Type) where
  actor : Nat
  remaining : Nat
  current : Option τ
  /-- The results so far, the last one first. -/
  results : List β

namespace Series

variable {τ β ω : Type}

def new (actor rounds : Nat) : Series τ β := ⟨actor, rounds, none, []⟩

def isDone (s : Series τ β) : Bool := s.remaining = 0 && s.current.isNone

/-- Begins a round, lets it go on, and ends it when its result is there. -/
def step (begin : ω → τ) (go : τ → ω → Progress τ ω) (result? : τ → Option β)
    (finish : ω → ω) (s : Series τ β) (w : ω) : Progress (Series τ β) ω :=
  match s.current with
  | none =>
    if s.remaining = 0 then .waiting s w
    else .moving { s with remaining := s.remaining - 1, current := some (begin w) } w
  | some t =>
    match result? t with
    | some b => .moving { s with current := none, results := b :: s.results } (finish w)
    | none => (go t w).map fun t => { s with current := some t }

end Series

/-! ## Executing an operation -/

/-- An ending as the answer of an operation. -/
def Ending.toAttempt : Ending α ε → Except (AttemptFailure ε) α
  | .ok a => .ok a
  | .failed e true => .error (.transient e)
  | .failed e false => .error (.fatal e)

/-- The world as the executor sees it, on behalf of actor `i`. -/
def operationHost (i : Nat) : Executor.Host (World α ε) α ε where
  now w := w.clock
  wake := World.wake
  cancelled w := w.isCancelled i
  start := World.clear i
  poll w :=
    let (answer, w) := w.poll i (w.isCancelled i)
    (answer.ending.map Ending.toAttempt, w)
  next w :=
    let (rolls, w) := w.roll
    World.source.next rolls w
  pause := World.pause

abbrev OperationSeries (α ε : Type) :=
  Series (Executor.Stage α ε) (Except (CampaignFailure ε) α)

def operationJob : Job (OperationSeries α ε) (World α ε) where
  step s :=
    s.step (fun _ => .ready) (Executor.step (operationHost s.actor)) Executor.Stage.result?
      (World.write · (.done none))
  isDone := Series.isDone
  atWait s := (s.current.bind Executor.Stage.due?).isSome
  due s w := (s.current.bind Executor.Stage.due?).toList ++ w.flightDue s.actor

/-! ## Campaigns -/

/-- An ending as the outcome of a connector's attempt. -/
def Ending.toOutcome : Ending Unit ε → Except ε Unit
  | .ok () => .ok ()
  | .failed e _ => .error e

/-- The world as a campaign of actor `i` sees it. -/
def surroundings (i : Nat) : Surroundings (World Unit ε) ε where
  now w := w.clock
  wake := World.wake
  cancelled w := w.isCancelled i
  start := World.clear i
  poll cancelled w :=
    let (answer, w) := w.poll i cancelled
    (⟨answer.ending.map Ending.toOutcome, answer.cancelsOwn⟩, w)
  publish := World.publish i
  pause := World.pause
  roll := World.roll

/-- Campaigns under one brief, one after another. -/
structure CampaignSeries (ε : Type) where
  brief : Brief (World Unit ε) ε
  series : Series (Campaign.State ε) (Except (CampaignFailure ε) Unit)

/-- A campaign is at a wait in a pause and in its last poll, and one under a deadline when it
is about to begin. -/
def CampaignSeries.atWait (s : CampaignSeries ε) : Bool :=
  match s.series.current.map State.phase with
  | none => s.brief.settings.campaignDeadline.isSome
  | some (.running stage) => stage.due?.isSome
  | some (.expiring _) => true
  | _ => false

def campaignJob : Job (CampaignSeries ε) (World Unit ε) where
  step s w :=
    (s.series.step (fun w => State.begin s.brief w.clock)
      (State.step s.brief (surroundings s.series.actor)) State.result?
      (World.write · (.done (some s.brief.connector.name))) w).map
      fun series => { s with series }
  isDone s := s.series.isDone
  atWait := CampaignSeries.atWait
  due s w := (s.series.current.map State.due).getD [] ++ w.flightDue s.series.actor

end Reattempt.Rehearsal
