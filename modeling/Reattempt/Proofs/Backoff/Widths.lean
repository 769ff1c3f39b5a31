import Reattempt.Proofs.Backoff.Linearization

/-!
# The words of a generator are wide enough

A generator moves on only from a delay that is shorter than the ceiling, and no policy has
more than 136 of these, since no base is shorter than a nanosecond. So the count of moves
stays small whoever draws and in whatever order. The terms never exceed the ceiling, so
that two of them can be added and one of them told as a duration. Nothing here says that a
call ends: a draw may be overtaken for ever.
-/

namespace Reattempt.Backoff

namespace Policy

variable {p : Policy}

theorem ceilingNanos_le_term (p : Policy) : p.ceilingNanos ≤ p.term 137 := by
  by_contra h
  exact absurd (lt_of_term_lt (Nat.not_le.mp h)) (Nat.lt_irrefl 137)

theorem exists_ceilingNanos_le_term (p : Policy) : ∃ k, p.ceilingNanos ≤ p.term (k + 1) :=
  ⟨136, p.ceilingNanos_le_term⟩

/-- How many delays of the sequence are shorter than the ceiling. -/
def moves (p : Policy) : Nat := Nat.find p.exists_ceilingNanos_le_term

theorem moves_le_iff {k : Nat} : p.moves ≤ k ↔ p.ceilingNanos ≤ p.term (k + 1) := by
  constructor
  · intro h
    have hreached : p.ceilingNanos ≤ p.term (p.moves + 1) :=
      Nat.find_spec p.exists_ceilingNanos_le_term
    exact hreached.trans (p.term_mono (Nat.succ_le_succ h))
  · exact Nat.find_min' p.exists_ceilingNanos_le_term

theorem moves_le (p : Policy) : p.moves ≤ 136 := moves_le_iff.mpr p.ceilingNanos_le_term

/-- There are as many from one nanosecond up to the longest duration. -/
example :
    let p := unbounded (.ofNanos 1)
    p.term 136 < p.ceilingNanos ∧ p.ceilingNanos ≤ p.term 137 := by
  decide +kernel

end Policy

namespace Fibonacci

/-! ## Terms -/

theorem terms_le (base ceiling n : Nat) :
    (terms base ceiling n).1 ≤ ceiling ∧ (terms base ceiling n).2 ≤ ceiling := by
  induction n with
  | zero => exact ⟨Nat.zero_le _, Nat.min_le_right _ _⟩
  | succ n ih =>
    by_cases hs : ceiling ≤ (terms base ceiling n).2
    · simpa only [terms, hs, if_true] using ih
    · simp only [terms, hs, if_false]
      exact ⟨ih.2, Nat.min_le_right _ _⟩

/-- The sum of the last two terms is within 128 bits, also where it exceeds the ceiling. -/
theorem saturatingAdd_terms {base ceiling : Nat} (hc : ceiling < 2 ^ 127) (n : Nat) :
    saturatingAdd (terms base ceiling n).1 (terms base ceiling n).2 =
      (terms base ceiling n).1 + (terms base ceiling n).2 := by
  have ⟨hprevious, hcurrent⟩ := terms_le base ceiling n
  have hpow : Nat.pow 2 128 = 2 ^ 128 := rfl
  rw [saturatingAdd, hpow]
  omega

theorem termAt_le (g : Fibonacci) (k : UInt32) : g.termAt k ≤ Duration.longest.toNanos :=
  (terms_le _ _ _).2.trans g.ceiling.toNanos_le_longest

/-! ## The count of moves -/

section

variable {p : Policy} {n : Nat} {g : Fibonacci}

theorem isSaturated_termAt_iff (hg : g.policy = p.normalized) (k : UInt32) :
    g.isSaturated (g.termAt k) = true ↔ p.moves ≤ k.toNat := by
  rw [isSaturated_iff hg, termAt_eq hg, Policy.moves_le_iff]

theorem lt_moves_of_isSaturated_eq_false (hg : g.policy = p.normalized) {k : UInt32}
    (hs : g.isSaturated (g.termAt k) = false) : k.toNat < p.moves := by
  rw [← Nat.not_le, ← isSaturated_termAt_iff hg, hs]
  exact Bool.false_ne_true

/-- A move is made from a count that is far from the end of its word. -/
theorem toNat_add_one_of_lt {k : UInt32} (h : k.toNat < p.moves) :
    (k + 1).toNat = k.toNat + 1 := by
  have hmoves := p.moves_le
  rw [UInt32.toNat_add, UInt32.toNat_one]
  omega

/-- The generator of `p` when `n` delays were drawn from it: it has counted those that are
shorter than the ceiling. -/
structure Counted (p : Policy) (n : Nat) (g : Fibonacci) : Prop where
  policy : g.policy = p.normalized
  step : g.step.toNat = min n p.moves

theorem counted_ofPolicy (p : Policy) : Counted p 0 (ofPolicy p) := ⟨rfl, (Nat.zero_min _).symm⟩

namespace Counted

theorem step_le (h : Counted p n g) : g.step.toNat ≤ 136 :=
  h.step ▸ (Nat.min_le_right _ _).trans p.moves_le

theorem next (h : Counted p n g) : Counted p (n + 1) g.next.2 := by
  refine ⟨(policy_next g).trans h.policy, ?_⟩
  have hstep := h.step
  cases hs : g.isSaturated (g.termAt g.step) with
  | true =>
    have hreached := (isSaturated_termAt_iff h.policy g.step).mp hs
    rw [Fibonacci.next, if_pos hs]
    show g.step.toNat = min (n + 1) p.moves
    omega
  | false =>
    have hshort := lt_moves_of_isSaturated_eq_false h.policy hs
    have hone := toNat_add_one_of_lt hshort
    rw [Fibonacci.next, if_neg (Bool.eq_false_iff.mp hs)]
    show (g.step + 1).toNat = min (n + 1) p.moves
    omega

theorem serial {rs : List Return} {g' : Fibonacci} (h : Counted p n g) (hs : Serial g rs g') :
    Counted p (n + (drawn rs).length) g' := by
  induction hs generalizing n with
  | nil => exact h
  | drew _ ih =>
    have hrest := ih h.next
    rwa [Nat.add_right_comm] at hrest
  | peeked _ ih => exact ih h

end Counted

end

end Fibonacci

namespace Contention

/-- After any schedule the count of moves is the number of draws that have ended, or else of the
delays shorter than the ceiling, so at most 136; it does not decrease later; and a caller that
is about to move it on adds one without running over. At any count the sum of the last two terms
is within its width, no term exceeds the longest duration, and its whole seconds and the
nanoseconds beyond them are within theirs. -/
theorem run_fits (p : Policy) (callers : Nat) (as : List Access) :
    let c := ((Contention.start (.ofPolicy p) callers).run as).1
    let ended := ((Contention.start (.ofPolicy p) callers).run as).2
    let g := c.generator
    g.step.toNat = min (drawn ended).length p.moves ∧
      g.step.toNat ≤ 136 ∧
      (∀ later, g.step ≤ (c.run later).1.generator.step) ∧
      (∀ (i : Nat) (observed : UInt32), c.callers[i]? = some (.drawing observed) →
        (observed + 1).toNat = observed.toNat + 1) ∧
      (∀ n, let (previous, current) := Fibonacci.terms g.base.toNanos g.ceiling.toNanos n
        Fibonacci.saturatingAdd previous current = previous + current) ∧
      ∀ k, g.termAt k ≤ Duration.longest.toNanos ∧
        (Duration.ofNanos (g.termAt k)).secs.toNat = g.termAt k / Duration.nanosPerSecond ∧
        (Duration.ofNanos (g.termAt k)).nanos.toNat = g.termAt k % Duration.nanosPerSecond := by
  intro c ended g
  obtain ⟨hs, hc⟩ := serial_run (aimed_start (.ofPolicy p) callers) as
  have hg := (Fibonacci.counted_ofPolicy p).serial hs
  refine ⟨?_, hg.step_le, fun later => ?_, fun i observed hi => ?_, fun n => ?_, fun k => ?_⟩
  · rw [hg.step, Nat.zero_add]
  · -- later there are as many draws or more
    have hlater := (hg.serial (serial_run hc later).1).step
    rw [UInt32.le_iff_toNat_le, hg.step, hlater]
    exact min_le_min_right _ (Nat.le_add_right _ _)
  · have hshort := Fibonacci.lt_moves_of_isSaturated_eq_false hg.policy (hc i observed hi)
    exact Fibonacci.toNat_add_one_of_lt hshort
  · refine Fibonacci.saturatingAdd_terms ?_ n
    have hlt := g.ceiling.toNanos_lt
    unfold UInt64.size Duration.nanosPerSecond at hlt
    omega
  · have hle := g.termAt_le k
    have htold := Duration.toNanos_ofNanos hle
    refine ⟨hle, ?_, ?_⟩
    · rw [Duration.toNat_secs, htold]
    · rw [Duration.toNat_nanos, htold]

end Contention

end Reattempt.Backoff
