import Reattempt.Backoff.Jitter
import Reattempt.Backoff.Policy

/-!
# Settings of a campaign

Settings say how long a campaign pauses between attempts and how long it may
take as a whole. Zeros mean "not given" and are kept as they are: the backoff
policy replaces its own, and a deadline of zero is no deadline.
-/

namespace Reattempt

open Backoff

structure Settings where
  base : Duration
  ceiling : Duration
  deadline : Duration
  jitter : Jitter
deriving DecidableEq

namespace Settings

/-- A policy without a deadline and without jitter. -/
def ofPolicy (p : Policy) : Settings := ⟨p.base, p.ceiling, .zero, .none⟩

def standard : Settings := ofPolicy .standard

def withDeadline (s : Settings) (d : Duration) : Settings := { s with deadline := d }

def withJitter (s : Settings) (j : Jitter) : Settings := { s with jitter := j }

def policy (s : Settings) : Policy := ⟨s.base, s.ceiling⟩

/-- How long a campaign may take, if there is a limit. -/
def campaignDeadline (s : Settings) : Option Duration :=
  if s.deadline.isZero then none else some s.deadline

end Settings

end Reattempt
