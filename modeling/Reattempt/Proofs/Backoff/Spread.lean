import Reattempt.Backoff.Jitter

/-!
# How far jitter spreads a delay

Jitter counts in whole milliseconds, and of these in as many as a word holds. So
what `equal` keeps of a delay is the half of a whole number, rounded down: it is
half of the delay only if that is an even number of milliseconds in one word, and
nothing is left of a delay of less than two.
-/

namespace Reattempt.Backoff.Jitter

open Duration (nanosPerMilli)

theorem millis_lt (d : Duration) : millis d < UInt64.size :=
  Nat.lt_of_le_of_lt (Nat.min_le_right _ _) (by decide)

theorem millis_mul_le (d : Duration) : millis d * nanosPerMilli ≤ d.toNanos :=
  Nat.le_trans (Nat.mul_le_mul_right _ (Nat.min_le_left _ _)) d.wholeMillis_mul_le

/-- A word holds the milliseconds of a delay, unless there are too many to begin with. -/
theorem toNanos_lt_millis {d : Duration} (hd : d.wholeMillis < UInt64.size) :
    d.toNanos < millis d * nanosPerMilli + nanosPerMilli := by
  have hm : millis d = d.toNanos / nanosPerMilli :=
    Nat.min_eq_left (show d.wholeMillis ≤ UInt64.size - 1 by omega)
  rw [hm]
  exact Nat.lt_div_mul_add (by decide)

theorem toNanos_equal (roll : Nat) (d : Duration) : (equal.apply roll d).toNanos =
    (millis d / 2 + roll % (millis d / 2 + 1)) * nanosPerMilli := by
  have hroll : roll % (millis d / 2 + 1) < millis d / 2 + 1 := Nat.mod_lt _ (Nat.succ_pos _)
  have hsmall : millis d / 2 + roll % (millis d / 2 + 1) < UInt64.size := by
    have h := millis_lt d
    omega
  rw [apply, Duration.toNanos_ofMillis]
  exact congrArg (· * nanosPerMilli) (UInt64.toNat_ofNat_of_lt' hsmall)

theorem half_le_equal (roll : Nat) (d : Duration) :
    millis d / 2 * nanosPerMilli ≤ (equal.apply roll d).toNanos := by
  rw [toNanos_equal]
  exact Nat.mul_le_mul_right _ (Nat.le_add_right _ _)

/-- The least that `equal` makes of a delay. -/
theorem toNanos_equal_zero (d : Duration) :
    (equal.apply 0 d).toNanos = millis d / 2 * nanosPerMilli := by
  rw [toNanos_equal, Nat.zero_mod, Nat.add_zero]

/-- Twice the half of the milliseconds is all of a delay if nothing was dropped. -/
theorem le_two_mul_half_iff (d : Duration) : d.toNanos ≤ 2 * (millis d / 2 * nanosPerMilli) ↔
    d.toNanos % (2 * nanosPerMilli) = 0 ∧ d.wholeMillis < UInt64.size := by
  have hle := millis_mul_le d
  constructor
  · intro h
    have hdiv : d.toNanos / nanosPerMilli ≤ millis d := by unfold nanosPerMilli at *; omega
    refine ⟨?_, Nat.lt_of_le_of_lt hdiv (millis_lt d)⟩
    unfold nanosPerMilli at *
    omega
  · rintro ⟨heven, hd⟩
    have hlt := toNanos_lt_millis hd
    unfold nanosPerMilli at *
    omega

theorem equal_eq_zero_iff (roll : Nat) (d : Duration) :
    equal.apply roll d = .zero ↔ d.toNanos < 2 * nanosPerMilli := by
  constructor
  · intro h
    have hhalf := half_le_equal roll d
    rw [h, Duration.toNanos_zero] at hhalf
    -- fewer than two milliseconds are no more than a word holds
    have hd : d.wholeMillis < UInt64.size := by
      have hmin : millis d = min (d.toNanos / nanosPerMilli) (UInt64.size - 1) := rfl
      show d.toNanos / nanosPerMilli < UInt64.size
      unfold nanosPerMilli UInt64.size at *
      omega
    have hlt := toNanos_lt_millis hd
    unfold nanosPerMilli at *
    omega
  · intro h
    have hle := millis_mul_le d
    have hhalf : millis d / 2 = 0 := by unfold nanosPerMilli at *; omega
    refine Duration.toNanos_inj ?_
    rw [toNanos_equal, hhalf, Nat.zero_add, Nat.zero_add, Nat.mod_one, Nat.zero_mul,
      Duration.toNanos_zero]

/-- No jitter keeps a delay as it is, and no other makes it longer. Whatever is rolled, `equal`
keeps half of it just if the delay is an even number of milliseconds, and these fit into a word;
it falls short by less than a millisecond if they fit, and it makes no wait at all of a delay
just if that is shorter than two milliseconds. -/
theorem apply_spread (d : Duration) :
    (∀ roll, Jitter.none.apply roll d = d) ∧
    (∀ roll, (Jitter.full.apply roll d).toNanos ≤ d.toNanos) ∧
    (∀ roll, (Jitter.equal.apply roll d).toNanos ≤ d.toNanos) ∧
    ((∀ roll, d.toNanos ≤ 2 * (Jitter.equal.apply roll d).toNanos) ↔
      d.toNanos % (2 * nanosPerMilli) = 0 ∧ d.wholeMillis < UInt64.size) ∧
    (d.wholeMillis < UInt64.size → ∀ roll,
      d.toNanos < 2 * ((Jitter.equal.apply roll d).toNanos + nanosPerMilli)) ∧
    ∀ roll, Jitter.equal.apply roll d = .zero ↔ d.toNanos < 2 * nanosPerMilli := by
  refine ⟨fun roll => apply_none roll d, fun roll => toNanos_apply_le _ roll d,
    fun roll => toNanos_apply_le _ roll d, ?half, fun hd roll => ?short,
    fun roll => equal_eq_zero_iff roll d⟩
  case half =>
    rw [← le_two_mul_half_iff]
    constructor
    · intro h
      exact toNanos_equal_zero d ▸ h 0
    · intro h roll
      exact Nat.le_trans h (Nat.mul_le_mul_left 2 (half_le_equal roll d))
  case short =>
    have hlt := toNanos_lt_millis hd
    have hhalf := half_le_equal roll d
    rw [Nat.mul_add]
    unfold nanosPerMilli at *
    omega

end Reattempt.Backoff.Jitter
