import Reattempt.Duration

/-!
# Scripted attempts

A script says in advance what each attempt will do: how long it takes, whether
it heeds its cancellation, whom it cancels and how it ends. Steps are used up
one for each attempt; a script that is used up answers in one way for ever.
-/

namespace Reattempt.Rehearsal

inductive Wait where
  | no
  | sleep (d : Duration)
  | forever
deriving DecidableEq

/-- Whose token an attempt cancels before it ends. -/
inductive Target where
  | campaign
  | attempt
deriving DecidableEq

/-- How an attempt ends. -/
inductive Ending (α ε : Type) where
  | ok (a : α)
  | failed (e : ε) (transient : Bool)

structure Attempt (α ε : Type) where
  wait : Wait
  /-- How it ends when it is cancelled, if it heeds that. -/
  onCancel : Option (Ending α ε)
  cancels : Option Target
  ending : Ending α ε

/-- Attempts with how often each is repeated, and what every later attempt does. -/
structure Script (α ε : Type) where
  steps : List (Nat × Attempt α ε)
  afterwards : Attempt α ε

namespace Script

variable {α ε : Type}

/-- The next attempt and the script after it. -/
def take : List (Nat × Attempt α ε) → Attempt α ε → Attempt α ε × List (Nat × Attempt α ε)
  | [], last => (last, [])
  | (0, _) :: steps, last => take steps last
  | (n + 1, a) :: steps, _ => (a, (n, a) :: steps)

def next (s : Script α ε) : Attempt α ε × Script α ε :=
  let (a, steps) := take s.steps s.afterwards
  (a, { s with steps })

end Script

end Reattempt.Rehearsal
