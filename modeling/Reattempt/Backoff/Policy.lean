import Reattempt.Duration

/-!
# Backoff policies

A policy names the first delay and the longest one. Zero stands for "not
given": no base means ten seconds, no ceiling means that only the longest
duration bounds a delay. `normalized` puts these in the place of the zeros.
-/

namespace Reattempt.Backoff

/-- The first delay and the bound on every delay. -/
structure Policy where
  base : Duration
  ceiling : Duration
deriving DecidableEq

namespace Policy

/-- The first delay of a policy that gives none. -/
def defaultBase : Duration := .ofSecs 10

def standard : Policy := ⟨.ofSecs 1, .ofSecs 5⟩

/-- A policy without a ceiling. -/
def unbounded (base : Duration) : Policy := ⟨base, .zero⟩

def normalized (p : Policy) : Policy :=
  { base := if p.base.isZero then defaultBase else p.base
    ceiling := if p.ceiling.isZero then .longest else p.ceiling }

/-- Delays grow until no longer duration exists. -/
def isUnbounded (p : Policy) : Bool :=
  p.ceiling.isZero || p.ceiling = .longest

theorem normalized_normalized (p : Policy) : p.normalized.normalized = p.normalized := by
  have hb : (if p.base.isZero then defaultBase else p.base).isZero = false := by
    split
    · rfl
    · simp_all
  have hc : (if p.ceiling.isZero then Duration.longest else p.ceiling).isZero = false := by
    split
    · rfl
    · simp_all
  simp [normalized, hb, hc]

theorem isUnbounded_normalized (p : Policy) : p.normalized.isUnbounded = p.isUnbounded := by
  by_cases h : p.ceiling.isZero <;> simp [normalized, isUnbounded, h]

theorem ceiling_normalized_of_isUnbounded {p : Policy} (h : p.isUnbounded = true) :
    p.normalized.ceiling = .longest := by
  by_cases hzero : p.ceiling.isZero <;> simp_all [normalized, isUnbounded]

end Policy

end Reattempt.Backoff
