import Mathlib.Data.Nat.Fib.Basic
import Mathlib.Tactic.NormNum.NatFib
import Reattempt.Backoff.Fibonacci

/-!
# The sequence of delays

The `n`-th delay of a policy is the `n`-th Fibonacci number times its base, at
most its ceiling, as exact naturals. The generator works it out again from a
count of moves in narrow words, stops adding when the ceiling is reached and
stops counting then: this never shows.
-/

namespace Reattempt.Backoff

open Nat (fib)

namespace Policy

/-- The effective base in nanoseconds. -/
def baseNanos (p : Policy) : Nat :=
  if p.base = .zero then 10 * Duration.nanosPerSecond else p.base.toNanos

/-- The effective ceiling in nanoseconds. -/
def ceilingNanos (p : Policy) : Nat :=
  if p.ceiling = .zero then Duration.longest.toNanos else p.ceiling.toNanos

/-- The `n`-th delay in nanoseconds, the first one being number 1. -/
def term (p : Policy) (n : Nat) : Nat := min (fib n * p.baseNanos) p.ceilingNanos

theorem toNanos_base_normalized (p : Policy) : p.normalized.base.toNanos = p.baseNanos := by
  by_cases h : p.base = .zero
  · have hz := (Duration.isZero_iff p.base).mpr h
    rw [normalized, baseNanos, if_pos h, if_pos hz]
    show defaultBase.toNanos = _
    decide
  · have hz := mt (Duration.isZero_iff p.base).mp h
    rw [normalized, baseNanos, if_neg h, if_neg hz]

theorem toNanos_ceiling_normalized (p : Policy) :
    p.normalized.ceiling.toNanos = p.ceilingNanos := by
  by_cases h : p.ceiling = .zero
  · have hz := (Duration.isZero_iff p.ceiling).mpr h
    rw [normalized, ceilingNanos, if_pos h, if_pos hz]
  · have hz := mt (Duration.isZero_iff p.ceiling).mp h
    rw [normalized, ceilingNanos, if_neg h, if_neg hz]

theorem baseNanos_pos (p : Policy) : 0 < p.baseNanos := by
  unfold baseNanos
  split
  · decide
  · rename_i h
    exact Duration.toNanos_pos h

theorem ceilingNanos_le (p : Policy) : p.ceilingNanos ≤ Duration.longest.toNanos := by
  rw [← toNanos_ceiling_normalized]
  exact Duration.toNanos_le_longest _

theorem term_le_ceilingNanos (p : Policy) (n : Nat) : p.term n ≤ p.ceilingNanos :=
  Nat.min_le_right _ _

theorem term_mono (p : Policy) {m n : Nat} (h : m ≤ n) : p.term m ≤ p.term n := by
  have hf := Nat.mul_le_mul_right p.baseNanos (Nat.fib_mono h)
  unfold term
  omega

theorem term_eq_of_saturated {p : Policy} {m n : Nat} (hm : p.ceilingNanos ≤ p.term m)
    (h : m ≤ n) : p.term n = p.ceilingNanos :=
  Nat.le_antisymm (p.term_le_ceilingNanos n) (hm.trans (p.term_mono h))

/-- Past the second term the delays grow until the ceiling is reached. -/
theorem term_lt_term {p : Policy} {m n : Nat} (hm : 2 ≤ m) (h : m < n)
    (hc : p.term m < p.ceilingNanos) : p.term m < p.term n := by
  have hf : fib m * p.baseNanos < fib n * p.baseNanos :=
    Nat.mul_lt_mul_of_pos_right ((Nat.fib_lt_fib hm).mpr h) p.baseNanos_pos
  unfold term at *
  omega

/-- The ceiling is reached with the 137th term at the latest. -/
theorem lt_of_term_lt {p : Policy} {n : Nat} (h : p.term n < p.ceilingNanos) : n < 137 := by
  by_contra hn
  have hf : fib 137 ≤ fib n := Nat.fib_mono (by omega)
  have hb := Nat.mul_le_mul hf p.baseNanos_pos
  have hc := p.ceilingNanos_le
  rw [Duration.toNanos_longest] at hc
  have hlarge : UInt64.size * Duration.nanosPerSecond ≤ fib 137 := by
    unfold UInt64.size Duration.nanosPerSecond
    norm_num
  unfold term at h
  omega

end Policy

namespace Fibonacci

/-- Neither the clamping inside the recurrence nor the width of its words ever shows. -/
theorem terms_eq {base ceiling : Nat} (hc : ceiling < 2 ^ 128) (n : Nat) :
    (terms base ceiling n).2 = min (fib (n + 1) * base) ceiling ∧
      ((terms base ceiling n).2 < ceiling → (terms base ceiling n).1 = fib n * base) := by
  induction n with
  | zero => simp [terms]
  | succ n ih =>
    obtain ⟨hcur, hprev⟩ := ih
    have hfib : fib (n + 1 + 1) * base = fib n * base + fib (n + 1) * base := by
      rw [Nat.fib_add_two, Nat.add_mul]
    by_cases hs : ceiling ≤ (terms base ceiling n).2
    · -- the recurrence stands still once the ceiling is reached
      simp only [terms, hs, if_true]
      omega
    · have hlt : (terms base ceiling n).2 < ceiling := by omega
      have hpow : Nat.pow 2 128 = 2 ^ 128 := rfl
      simp only [terms, hs, if_false, saturatingAdd, hprev hlt, hpow]
      omega

section Policy

variable {p : Policy} {g : Fibonacci}

theorem toNanos_base (hg : g.policy = p.normalized) : g.base.toNanos = p.baseNanos := by
  rw [← p.toNanos_base_normalized, ← hg, policy]

theorem toNanos_ceiling (hg : g.policy = p.normalized) : g.ceiling.toNanos = p.ceilingNanos := by
  rw [← p.toNanos_ceiling_normalized, ← hg, policy]

theorem termAt_eq (hg : g.policy = p.normalized) (k : UInt32) :
    g.termAt k = p.term (k.toNat + 1) := by
  have hlt : g.ceiling.toNanos < 2 ^ 128 := by
    have h := g.ceiling.toNanos_lt
    unfold UInt64.size Duration.nanosPerSecond at h
    omega
  rw [termAt, (terms_eq hlt k.toNat).1, toNanos_base hg, toNanos_ceiling hg, Policy.term]

theorem isSaturated_iff (hg : g.policy = p.normalized) (t : Nat) :
    g.isSaturated t = true ↔ p.ceilingNanos ≤ t := by
  rw [isSaturated, toNanos_ceiling hg, decide_eq_true_iff]

theorem toNanos_ofNanos_term (p : Policy) (n : Nat) :
    (Duration.ofNanos (p.term n)).toNanos = p.term n :=
  Duration.toNanos_ofNanos ((p.term_le_ceilingNanos n).trans p.ceilingNanos_le)

end Policy

/-- The generator of `p` when `n` delays were drawn from it: its count is `n`, or it stands
where it has reached the ceiling. -/
structure Stands (p : Policy) (n : Nat) (g : Fibonacci) : Prop where
  policy : g.policy = p.normalized
  step : g.step.toNat = n ∨ g.step.toNat ≤ n ∧ p.ceilingNanos ≤ p.term (g.step.toNat + 1)

theorem stands_ofPolicy (p : Policy) : Stands p 0 (ofPolicy p) := ⟨rfl, .inl rfl⟩

namespace Stands

variable {p : Policy} {n : Nat} {g : Fibonacci}

theorem termAt (h : Stands p n g) : g.termAt g.step = p.term (n + 1) := by
  rw [termAt_eq h.policy]
  rcases h.step with hn | ⟨hn, hc⟩
  · rw [hn]
  · rw [Policy.term_eq_of_saturated hc (Nat.le_refl _),
      Policy.term_eq_of_saturated hc (show g.step.toNat + 1 ≤ n + 1 by omega)]

theorem isSaturated_iff (h : Stands p n g) :
    g.isSaturated (g.termAt g.step) = true ↔ p.ceilingNanos ≤ p.term (n + 1) := by
  rw [Fibonacci.isSaturated_iff h.policy, h.termAt]

theorem toNanos_peek (h : Stands p n g) : g.peek.toNanos = p.term (n + 1) := by
  by_cases hs : g.isSaturated (g.termAt g.step) = true
  · rw [peek, delay, if_pos hs, toNanos_ceiling h.policy,
      Policy.term_eq_of_saturated (h.isSaturated_iff.mp hs) (Nat.le_refl _)]
  · rw [peek, delay, if_neg hs, h.termAt, toNanos_ofNanos_term]

/-- Below the ceiling the count of moves is that of the draws. -/
theorem step_eq (h : Stands p n g) (hlt : p.term (n + 1) < p.ceilingNanos) :
    g.step.toNat = n := by
  rcases h.step with hn | ⟨hn, hc⟩
  · exact hn
  · have ht := Policy.term_eq_of_saturated hc (show g.step.toNat + 1 ≤ n + 1 by omega)
    omega

/-- A draw moves on to the next term, and the count does not run over. -/
theorem next (h : Stands p n g) : Stands p (n + 1) g.next.2 := by
  by_cases hs : g.isSaturated (g.termAt g.step) = true
  · have hc := (Fibonacci.isSaturated_iff h.policy _).mp hs
    rw [termAt_eq h.policy] at hc
    have hn : g.step.toNat ≤ n := by rcases h.step with hn | ⟨hn, -⟩ <;> omega
    rw [Fibonacci.next, if_pos hs]
    exact ⟨h.policy, .inr ⟨Nat.le_succ_of_le hn, hc⟩⟩
  · have hlt : p.term (n + 1) < p.ceilingNanos := by
      have hc := mt h.isSaturated_iff.mpr hs
      omega
    have hn := h.step_eq hlt
    have hsmall := Policy.lt_of_term_lt hlt
    have hstep : (g.step + 1).toNat = n + 1 := by
      rw [UInt32.toNat_add, hn, UInt32.toNat_one]
      omega
    rw [Fibonacci.next, if_neg hs]
    exact ⟨h.policy, .inl hstep⟩

theorem draws (h : Stands p n g) (rolls : List Rolls) :
    (source.draws rolls g).1.map Duration.toNanos =
        (List.range rolls.length).map (fun k => p.term (n + k + 1)) ∧
      Stands p (n + rolls.length) (source.draws rolls g).2 := by
  induction rolls generalizing n g with
  | nil => exact ⟨rfl, h⟩
  | cons r rolls ih =>
    obtain ⟨hd, hg⟩ := ih h.next
    have hfirst : g.next.1.toNanos = p.term (n + 1) := by rw [fst_next, h.toNanos_peek]
    have hcount (k : Nat) : n + 1 + k = n + (k + 1) := by omega
    have hnext : source.next r g = g.next := rfl
    rw [Source.draws_cons, hnext, List.map_cons, hfirst, hd, List.length_cons,
      List.range_succ_eq_map, List.map_cons, List.map_map]
    refine ⟨?_, hcount rolls.length ▸ hg⟩
    simp only [hcount, Function.comp_def, Nat.succ_eq_add_one]

end Stands

theorem ofPolicy_eq_of_policy_eq {p : Policy} {g : Fibonacci} (h : g.policy = p.normalized) :
    ofPolicy g.policy = ofPolicy p := by
  rw [ofPolicy, h, p.normalized_normalized, ofPolicy]

/-- The delays drawn one after another from a new generator are the terms of its policy, looking
ahead shows the one to come and leaves the generator as it is, and a generator made from the
policy in force answers the same. -/
theorem draws_ofPolicy (p : Policy) (rolls : List Rolls) :
    (source.draws rolls (ofPolicy p)).1.map Duration.toNanos =
        (List.range rolls.length).map (fun k => p.term (k + 1)) ∧
      (source.peek (source.draws rolls (ofPolicy p)).2).1.toNanos = p.term (rolls.length + 1) ∧
      (∀ roll, (source.next roll (source.draws rolls (ofPolicy p)).2).1 =
        (source.peek (source.draws rolls (ofPolicy p)).2).1) ∧
      (source.peek (source.draws rolls (ofPolicy p)).2).2 = (source.draws rolls (ofPolicy p)).2 ∧
      ∀ again, source.draws again (ofPolicy (source.draws rolls (ofPolicy p)).2.policy) =
        source.draws again (ofPolicy p) := by
  obtain ⟨hd, hg⟩ := (stands_ofPolicy p).draws rolls
  rw [Nat.zero_add] at hg
  refine ⟨?_, hg.toNanos_peek, fun _ => fst_next _, rfl, fun again => ?_⟩
  · simpa only [Nat.zero_add] using hd
  · rw [ofPolicy_eq_of_policy_eq hg.policy]

end Fibonacci

end Reattempt.Backoff
