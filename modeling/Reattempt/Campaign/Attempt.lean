import Reattempt.Campaign.Surroundings
import Reattempt.Executor
import Reattempt.Backoff.Fibonacci
import Reattempt.Settings

/-!
# Attempts of a campaign

A campaign lets the executor connect and publishes what becomes of each
attempt. Its delays come from a generator that it shares with others, or from a
fresh one of its own. Publishing comes last in whatever it does, so a world in
which a subscriber has panicked is seen before anything else happens in it.
-/

namespace Reattempt.Campaign

open Backoff

/-- What campaigns are told in advance: their connector, their settings, and the generator
that they share, if they do. -/
structure Brief (ω ε : Type) where
  connector : Connector ε
  settings : Settings
  shared : Option (Source ω)

/-- What a campaign keeps for itself. -/
structure Memory where
  /-- Its own generator, if none is shared. -/
  fresh : Fibonacci
  attempts : UInt32
  /-- Its token was cancelled because the deadline passed. -/
  expired : Bool
  /-- The attempt in flight has cancelled its own token. -/
  severed : Bool
deriving DecidableEq

variable {ω ε : Type}

namespace Brief

/-- The generator of a campaign that shares none. -/
def own (b : Brief ω ε) : Source Fibonacci := b.settings.jitter.decorate Fibonacci.source

def memory (b : Brief ω ε) : Memory :=
  ⟨.ofPolicy b.settings.policy, 0, false, false⟩

/-- An answer of the campaign's own generator. -/
def ask {β : Type} (m : Memory) (w : ω) (answer : β × Fibonacci) : β × Memory × ω :=
  (answer.1, { m with fresh := answer.2 }, w)

def next (b : Brief ω ε) (env : Surroundings ω ε) : Memory × ω → Duration × Memory × ω
  | (m, w) =>
    let (rolls, w) := env.roll w
    match b.shared with
    | some src => let (d, w) := src.next rolls w; (d, m, w)
    | none => ask m w (b.own.next rolls m.fresh)

def peek (b : Brief ω ε) : Memory × ω → Duration × Memory × ω
  | (m, w) =>
    match b.shared with
    | some src => let (d, w) := src.peek w; (d, m, w)
    | none => ask m w (b.own.peek m.fresh)

def peekSeconds (b : Brief ω ε) : Memory × ω → UInt64 × Memory × ω
  | (m, w) =>
    match b.shared with
    | some src => let (s, w) := src.peekSeconds w; (s, m, w)
    | none => ask m w (b.own.peekSeconds m.fresh)

/-- A notice of this campaign that bears the number of its last attempt. -/
def notice (b : Brief ω ε) (kind : EventKind) (m : Memory) : Notice :=
  ((Notice.ofKind kind).withConnector b.connector.name).withAttempt m.attempts

def publish (env : Surroundings ω ε) (n : Notice) : Memory × ω → Memory × ω
  | (m, w) => (m, env.publish n w)

/-- Cancellation of the campaign, by its caller or by its deadline. -/
def cancelled (env : Surroundings ω ε) : Memory × ω → Bool
  | (m, w) => env.cancelled w || m.expired

def start (b : Brief ω ε) (env : Surroundings ω ε) : Memory × ω → Memory × ω
  | (m, w) =>
    let m := { m with attempts := m.attempts + 1, severed := false }
    publish env (b.notice .attemptStarting m) (m, env.start w)

/-- What a campaign says of a transient failure, unless the attempt was cancelled. -/
def announceBackoff (b : Brief ω ε) (env : Surroundings ω ε) (e : ε) (s : Memory × ω) :
    Memory × ω :=
  if cancelled env s || s.1.severed then s
  else
    let (d, s) := b.peek s
    let (seconds, s) := b.peekSeconds s
    let n := ((b.notice .backoffScheduled s.1).withDelay d).withRetryInSeconds seconds
    publish env (n.withReason (b.connector.text e)) s

/-- What a campaign makes of the end of an attempt. -/
def conclude (b : Brief ω ε) (env : Surroundings ω ε) (s : Memory × ω) :
    Except ε Unit → Except (AttemptFailure ε) Unit × Memory × ω
  | .ok () => (.ok (), publish env (b.notice .connected s.1) s)
  | .error e =>
    if b.connector.retryable e then (.error (.transient e), b.announceBackoff env e s)
    else
      (.error (.fatal e),
        publish env ((b.notice .connectFailed s.1).withReason (b.connector.text e)) s)

def poll (b : Brief ω ε) (env : Surroundings ω ε) :
    Memory × ω → Option (Except (AttemptFailure ε) Unit) × Memory × ω
  | (m, w) =>
    let (reply, w) := env.poll (cancelled env (m, w) || m.severed) w
    let m := { m with severed := m.severed || reply.cancelsOwn }
    match reply.outcome with
    | none => (none, m, w)
    | some outcome =>
      let (result, s) := b.conclude env (m, w) outcome
      (some result, s)

/-- The executor's view of a campaign. -/
def host (b : Brief ω ε) (env : Surroundings ω ε) : Executor.Host (Memory × ω) Unit ε where
  now s := env.now s.2
  wake due s := (env.wake due s.2).map fun w => (s.1, w)
  cancelled := cancelled env
  start := b.start env
  poll := b.poll env
  next := b.next env
  pause d s := (s.1, env.pause d s.2)

end Brief

end Reattempt.Campaign
