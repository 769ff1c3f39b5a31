import Reattempt.Backoff.Source
import Reattempt.Failure.Outcome
import Reattempt.Progress

/-!
# Running an operation until it succeeds

The executor repeats an operation: it pauses after a transient failure and ends
on success, on a fatal failure and on cancellation. It is a machine of small
steps on a world of which it knows only what `Host` offers; between two steps,
whenever it waits, anything else may change that world. How long an attempt
takes, and whether it looks at its cancellation, is the host's affair.
-/

namespace Reattempt.Executor

/-- What the executor needs of a world `ω`. -/
structure Host (ω α ε : Type) where
  /-- Milliseconds since some beginning. -/
  now : ω → Nat
  /-- Ends a wait until a time of the clock, if that has come and the world lets it end. -/
  wake : Nat → ω → Option ω
  /-- Whether the campaign is cancelled. -/
  cancelled : ω → Bool
  /-- Begins a new attempt. -/
  start : ω → ω
  /-- Lets the attempt in flight go on until it waits or has ended. -/
  poll : ω → Option (Except (AttemptFailure ε) α) × ω
  /-- Draws a delay. -/
  next : ω → Duration × ω
  /-- Is told the delay before the pause. -/
  pause : Duration → ω → ω

/-- Where a run stands. -/
inductive Stage (α ε : Type) where
  | ready
  | attempting
  /-- An attempt has failed for now. -/
  | refused
  /-- Waiting until the clock shows `due`. -/
  | pausing (due : Nat)
  | ended (result : Except (CampaignFailure ε) α)
deriving Inhabited

variable {ω α ε : Type}

/-- How a run goes on when an attempt has ended. -/
def Stage.ofAttempt : Except (AttemptFailure ε) α → Stage α ε
  | .ok a => .ended (.ok a)
  | .error (.fatal e) => .ended (.error (.fatal e))
  | .error (.transient _) => .refused

/-- The run is over if it is cancelled, and otherwise goes on as told. -/
def unlessCancelled (h : Host ω α ε) (w : ω) (go : Progress (Stage α ε) ω) :
    Progress (Stage α ε) ω :=
  if h.cancelled w then .moving (.ended (.error .canceled)) w else go

/-- Draws a delay and begins the pause. -/
def pause (h : Host ω α ε) (w : ω) : Progress (Stage α ε) ω :=
  let (d, w) := h.next w
  .moving (.pausing (h.now w + d.ceilMillis)) (h.pause d w)

def step (h : Host ω α ε) : Stage α ε → ω → Progress (Stage α ε) ω
  | .ready, w => unlessCancelled h w (.moving .attempting (h.start w))
  | .attempting, w =>
    match h.poll w with
    | (none, w) => .waiting .attempting w
    | (some answer, w) => .moving (.ofAttempt answer) w
  | .refused, w => unlessCancelled h w (pause h w)
  | .pausing due, w =>
    unlessCancelled h w
      (match h.wake due w with
      | some w => .moving .ready w
      | none => .waiting (.pausing due) w)
  | .ended result, w => .waiting (.ended result) w

/-- When a waiting run wants to go on by itself. -/
def Stage.due? : Stage α ε → Option Nat
  | .pausing due => some due
  | _ => none

def Stage.result? : Stage α ε → Option (Except (CampaignFailure ε) α)
  | .ended r => some r
  | _ => none

end Reattempt.Executor
