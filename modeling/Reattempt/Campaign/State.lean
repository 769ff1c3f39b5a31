import Reattempt.Campaign.Attempt

/-!
# Campaigns

A campaign is a run of the executor under a deadline. When the deadline passes
while the run waits, the campaign's token is cancelled and the run goes on once
more until it ends or waits again, with a timer of no length beside it; only
success counts then. A campaign that no attempt has closed publishes a notice of
its own before it is over.
-/

namespace Reattempt.Campaign

variable {ω ε : Type}

/-- Where a campaign stands. -/
inductive Phase (ε : Type) where
  | running (stage : Executor.Stage Unit ε)
  /-- The deadline has passed, and the run is polled for the last time. -/
  | expiring (stage : Executor.Stage Unit ε)
  /-- The result is there; its event is not yet published. -/
  | closing (result : Except (CampaignFailure ε) Unit)
  | finished (result : Except (CampaignFailure ε) Unit)
deriving Inhabited

/-- A campaign between two steps. -/
structure State (ε : Type) where
  memory : Memory
  phase : Phase ε
  /-- When its deadline passes, and how long that was from the beginning. -/
  limit : Option (Nat × Duration)

namespace State

/-- A campaign that begins at a time of the clock. -/
def begin (b : Brief ω ε) (now : Nat) : State ε :=
  { memory := b.memory
    phase := .running .ready
    limit := b.settings.campaignDeadline.map fun d => (now + d.ceilMillis, d) }

/-- How long the campaign was given. -/
def deadline (s : State ε) : Duration := (s.limit.map (·.2)).getD .zero

/-- Closes the campaign because its deadline has passed. -/
def giveUp (s : State ε) : State ε :=
  { s with phase := .closing (.error (.deadlineExceeded s.deadline)) }

/-- The closing notice of a campaign, if no attempt has closed it. -/
def closingNotice (b : Brief ω ε) (m : Memory) :
    Except (CampaignFailure ε) Unit → Option Notice
  | .error .canceled => some (b.notice .canceled m)
  | .error (.deadlineExceeded d) => some { b.notice .deadlineExceeded m with delay := some d }
  | _ => none

/-- A run has gone on to a stage: the campaign closes if that is its end. -/
def runAt (s : State ε) (stage : Executor.Stage Unit ε) : State ε :=
  match stage with
  | .ended result => { s with phase := .closing result }
  | stage => { s with phase := .running stage }

/-- The same in the last poll, where of all results only success counts. -/
def expireAt (s : State ε) (stage : Executor.Stage Unit ε) : State ε :=
  match stage with
  | .ended (.ok ()) => { s with phase := .closing (.ok ()) }
  | .ended (.error _) => s.giveUp
  | stage => { s with phase := .expiring stage }

/-- The deadline has passed: the campaign's token is cancelled. -/
def expire (s : State ε) (stage : Executor.Stage Unit ε) : State ε :=
  { s with memory := { s.memory with expired := true }, phase := .expiring stage }

/-- Lets the run make a step. -/
def run (b : Brief ω ε) (env : Surroundings ω ε) (s : State ε) (w : ω)
    (stage : Executor.Stage Unit ε) : Progress (Executor.Stage Unit ε) ω × State ε :=
  let p := Executor.step (b.host env) stage (s.memory, w)
  (⟨p.moved, p.state, p.world.2⟩, { s with memory := p.world.1 })

def step (b : Brief ω ε) (env : Surroundings ω ε) (s : State ε) (w : ω) :
    Progress (State ε) ω :=
  match s.phase with
  | .running stage =>
    let (p, s) := s.run b env w stage
    if p.moved then .moving (s.runAt p.state) p.world
    else
      match s.limit.bind fun (due, _) => env.wake due p.world with
      | some w => .moving (s.expire stage) w
      | none => .waiting s p.world
  | .expiring stage =>
    let (p, s) := s.run b env w stage
    if p.moved then .moving (s.expireAt p.state) p.world
    else
      match env.wake (env.now p.world) p.world with
      | some w => .moving s.giveUp w
      | none => .waiting s p.world
  | .closing result =>
    .moving { s with phase := .finished result }
      ((closingNotice b s.memory result).elim w fun n => env.publish n w)
  | .finished _ => .waiting s w

/-- When a waiting campaign wants to go on by itself, apart from its attempt. -/
def due (s : State ε) : List Nat :=
  match s.phase with
  | .running stage => stage.due?.toList ++ (s.limit.map (·.1)).toList
  | _ => []

def result? (s : State ε) : Option (Except (CampaignFailure ε) Unit) :=
  match s.phase with
  | .finished result => some result
  | _ => none

end State

end Reattempt.Campaign
