import Reattempt.Duration.Millis
import Reattempt.Proofs.Number.Arithmetic

/-!
# Durations that survive as milliseconds

A duration is written either as an integer, which says it exactly, or as a
quotient that is rounded twice, and the product that is read is rounded once
more. Below `2 ^ 32` milliseconds the three errors together stay under half a
nanosecond. Above, they may be larger, and what a word of nanoseconds does not
hold is written all the same but not read.
-/

namespace Reattempt.Duration

open Number

variable {d d' : Duration}

/-- The duration is written as an integer. -/
def IsWhole (d : Duration) : Prop :=
  d.toNanos % nanosPerMilli = 0 ∧ d.wholeMillis < UInt64.size

/-- The milliseconds that are written for what is not a whole number of them. -/
def quotient (d : Duration) : Binary := (Binary.ofNat double d.toNanos).div double million

/-- The duration is an integer, or its nanoseconds are what the quotient is read as. -/
def Survives (d : Duration) : Prop := d.IsWhole ∨ nanosOfMillis? d.quotient = some d.toNanos

instance (d : Duration) : Decidable d.IsWhole := inferInstanceAs (Decidable (_ ∧ _))

instance (d : Duration) : Decidable d.Survives := inferInstanceAs (Decidable (_ ∨ _))

theorem not_isWhole_longest : ¬ longest.IsWhole := by
  intro h
  exact absurd h.1 (by rw [toNanos_longest]; decide)

/-! ## Integers -/

theorem toMillisValue_of_isWhole (h : d.IsWhole) :
    d.toMillisValue = .natural d.wholeMillis.toUInt64 := if_pos h

theorem read_of_isWhole (h : d.IsWhole) : ofMillisValue d.toMillisValue = .ok d := by
  have hword : d.wholeMillis.toUInt64.toNat = d.wholeMillis := UInt64.toNat_ofNat_of_lt' h.2
  have hnanos : d.wholeMillis * nanosPerMilli = d.toNanos :=
    Nat.div_mul_cancel (Nat.dvd_of_mod_eq_zero h.1)
  rw [toMillisValue_of_isWhole h, ofMillisValue, ofMillis, hword, hnanos, ofNanos_toNanos]

/-! ## Quotients -/

theorem toMillisValue_of_not_isWhole (h : ¬ d.IsWhole) :
    d.toMillisValue = .floating d.quotient := if_neg h

theorem toNanos_pos_of_not_isWhole (h : ¬ d.IsWhole) : 0 < d.toNanos := by
  refine toNanos_pos ?_
  rintro rfl
  exact h ⟨rfl, by decide⟩

theorem million_eq : million = .finite false (1000000 * 2 ^ 33) (-33) := by decide +kernel

theorem million_value : ((1000000 * 2 ^ 33 : Nat) * 2 ^ (-33 : Int) : ℚ) = 1000000 := by
  norm_num

theorem moderate_of_bounds {v : ℚ} (h : 1 / 2 ^ 30 ≤ v) (h' : v < 2 ^ 97) : Moderate v :=
  ⟨le_trans (by norm_num) h, lt_trans h' (by norm_num)⟩

section Errors

variable {n : Nat} {m₁ m₂ m₃ : Nat} {e₁ e₂ e₃ : Int}

/-- The number of nanoseconds, the quotient and the product, each rounded. -/
structure Roundings (n : Nat) (m₁ : Nat) (e₁ : Int) (m₂ : Nat) (e₂ : Int) (m₃ : Nat) (e₃ : Int) :
    Prop where
  number : Rounds n m₁ e₁
  quotient : Rounds (m₁ * 2 ^ e₁ / 1000000) m₂ e₂
  product : Rounds (m₂ * 2 ^ e₂ * 1000000) m₃ e₃

/-- Three relative errors add up. -/
theorem Roundings.relative (h : Roundings n m₁ e₁ m₂ e₂ m₃ e₃) :
    |(m₃ * 2 ^ e₃ : ℚ) - n| ≤ n / 2 ^ 51 := by
  obtain ⟨hnlow, hnhigh⟩ := abs_le.mp h.number.relative
  obtain ⟨hqlow, hqhigh⟩ := abs_le.mp h.quotient.relative
  obtain ⟨hplow, hphigh⟩ := abs_le.mp h.product.relative
  have hn : (0 : ℚ) ≤ n := Nat.cast_nonneg n
  generalize (m₁ * 2 ^ e₁ : ℚ) = a at *
  generalize (m₂ * 2 ^ e₂ : ℚ) = q at *
  generalize (m₃ * 2 ^ e₃ : ℚ) = p at *
  rw [abs_le]
  constructor <;> linarith

/-- Without an error in the number, the others are small in themselves. -/
theorem Roundings.absolute (h : Roundings n m₁ e₁ m₂ e₂ m₃ e₃) (hn : n < 2 ^ 32 * nanosPerMilli)
    (hexact : (m₁ * 2 ^ e₁ : ℚ) = n) : |(m₃ * 2 ^ e₃ : ℚ) - n| < 1 / 2 := by
  have hn' : (n : ℚ) < 2 ^ 32 * 1000000 := by exact_mod_cast hn
  have hquotient := h.quotient.absolute 32 (by decide) (by rw [hexact, zpow_ofNat]; linarith)
  rw [hexact] at hquotient
  obtain ⟨hqlow, hqhigh⟩ := abs_le.mp hquotient
  have hproduct := h.product.absolute 52 (by decide) (by norm_num at hqlow ⊢; linarith)
  obtain ⟨hplow, hphigh⟩ := abs_le.mp hproduct
  norm_num at hqlow hqhigh hplow hphigh
  rw [abs_lt]
  constructor <;> linarith

theorem exists_roundings (hpos : 0 < n) (hlt : n < 2 ^ 94) : ∃ m₁ e₁ m₂ e₂ m₃ e₃,
    Binary.ofNat double n = .finite false m₁ e₁ ∧
    (Binary.finite false m₁ e₁).div double million = .finite false m₂ e₂ ∧
    (Binary.finite false m₂ e₂).mul double million = .finite false m₃ e₃ ∧
    Roundings n m₁ e₁ m₂ e₂ m₃ e₃ := by
  have hn : (1 : ℚ) ≤ n := by exact_mod_cast hpos
  have hn' : (n : ℚ) < 2 ^ 94 := by exact_mod_cast hlt
  obtain ⟨m₁, e₁, hnumber, hround⟩ :=
    Binary.ofNat_rounds hpos (moderate_of_bounds (by linarith) (by linarith))
  obtain ⟨hlow, hhigh⟩ := abs_le.mp hround.relative
  have hquotient := Binary.div_rounds (a := false) (b := false) (e := e₁) (g := -33) hround.pos
    (show 0 < 1000000 * 2 ^ 33 by decide)
  rw [million_value] at hquotient
  obtain ⟨m₂, e₂, hdiv, hround'⟩ := hquotient (moderate_of_bounds (by linarith) (by linarith))
  obtain ⟨hlow', hhigh'⟩ := abs_le.mp hround'.relative
  have hproduct := Binary.mul_rounds (a := false) (b := false) (e := e₂) (g := -33) hround'.pos
    (show 0 < 1000000 * 2 ^ 33 by decide)
  rw [million_value] at hproduct
  obtain ⟨m₃, e₃, hmul, hround''⟩ := hproduct (moderate_of_bounds (by linarith) (by linarith))
  rw [← million_eq] at hdiv hmul
  exact ⟨m₁, e₁, m₂, e₂, m₃, e₃, hnumber, hdiv, hmul, hround, hround', hround''⟩

end Errors

/-! ## Reading what was written -/

/-- The milliseconds of a duration that is not written as an integer, and their product. -/
structure Written (d : Duration) (m : Nat) (e : Int) (m' : Nat) (e' : Int) : Prop where
  quotient : d.quotient = .finite false m e
  holds : double.Holds m e
  pos : 0 < m
  product : (Binary.finite false m e).mul double million = .finite false m' e'
  relative : |(m' * 2 ^ e' : ℚ) - d.toNanos| ≤ d.toNanos / 2 ^ 51
  exact : d.toNanos < 2 ^ 32 * nanosPerMilli →
    Binary.roundedMagnitude (.finite false m' e') = d.toNanos

theorem exists_written (h : ¬ d.IsWhole) : ∃ m e m' e', Written d m e m' e' := by
  have hpos := toNanos_pos_of_not_isWhole h
  have hlt : d.toNanos < 2 ^ 94 := by
    have hlt := d.toNanos_lt
    unfold UInt64.size nanosPerSecond at hlt
    omega
  obtain ⟨m₁, e₁, m₂, e₂, m₃, e₃, hnumber, hdiv, hmul, hround⟩ := exists_roundings hpos hlt
  refine ⟨m₂, e₂, m₃, e₃, ?_, hround.quotient.holds, hround.quotient.pos, hmul, hround.relative, ?_⟩
  · rw [Duration.quotient, hnumber, hdiv]
  · intro hshort
    obtain ⟨m, e, hnumber', -, hexact⟩ := Binary.ofNat_exact hpos (by
      unfold nanosPerMilli at hshort
      omega)
    cases hnumber.symm.trans hnumber'
    exact Binary.roundedMagnitude_eq (hround.absolute hshort hexact)

variable {m m' : Nat} {e e' : Int}

/-- The nanoseconds read are the product, rounded to an integer, if a word holds it. -/
theorem Written.nanos {n : Nat} (h : Written d m e m' e')
    (hn : Binary.roundedMagnitude (.finite false m' e') = n) :
    nanosOfMillis? d.quotient = if n < UInt64.size then some n else none := by
  simp only [nanosOfMillis?, h.quotient, h.product, hn]
  simp [Binary.isFinite]

theorem ofMillisValue_floating {x : Binary} (hfinite : x.isFinite = true)
    (hnegative : x.isNegative = false) : ofMillisValue (.floating x) =
      (nanosOfMillis? x).elim (.error (.millisOutOfRange x)) fun n => .ok (ofNanos n) := by
  rw [ofMillisValue, if_neg (by simp [hfinite, hnegative])]

theorem Written.read {n : Nat} (h : Written d m e m' e') (hwhole : ¬ d.IsWhole)
    (hn : Binary.roundedMagnitude (.finite false m' e') = n) : ofMillisValue d.toMillisValue =
      if n < UInt64.size then .ok (ofNanos n) else .error (.millisOutOfRange d.quotient) := by
  have hfinite : d.quotient.isFinite = true := by rw [h.quotient]; rfl
  have hnegative : d.quotient.isNegative = false := by rw [h.quotient]; rfl
  rw [toMillisValue_of_not_isWhole hwhole, ofMillisValue_floating hfinite hnegative, h.nanos hn]
  by_cases hlt : n < UInt64.size
  · rw [if_pos hlt, if_pos hlt, Option.elim_some]
  · rw [if_neg hlt, if_neg hlt, Option.elim_none]

theorem toNanos_ofNanos_of_lt {n : Nat} (h : n < UInt64.size) : (ofNanos n).toNanos = n := by
  refine toNanos_ofNanos ?_
  rw [toNanos_longest]
  unfold UInt64.size nanosPerSecond at *
  omega

/-- A duration survives exactly if reading what was written gives it back. -/
theorem survives_iff : d.Survives ↔ ofMillisValue d.toMillisValue = .ok d := by
  by_cases hwhole : d.IsWhole
  · exact iff_of_true (.inl hwhole) (read_of_isWhole hwhole)
  · obtain ⟨m, e, m', e', hq⟩ := exists_written hwhole
    rw [Survives, or_iff_right hwhole, hq.nanos rfl, hq.read hwhole rfl]
    generalize Binary.roundedMagnitude (.finite false m' e') = n
    by_cases hlt : n < UInt64.size
    · rw [if_pos hlt, if_pos hlt, Option.some.injEq, Except.ok.injEq]
      constructor
      · rintro rfl
        exact ofNanos_toNanos d
      · rintro rfl
        exact (toNanos_ofNanos_of_lt hlt).symm
    · rw [if_neg hlt, if_neg hlt]
      exact iff_of_false nofun nofun

/-- What was written fails to be read only because it is out of range. -/
theorem read_eq (d : Duration) : (∃ d', ofMillisValue d.toMillisValue = .ok d') ∨
    ∃ x, ofMillisValue d.toMillisValue = .error (.millisOutOfRange x) := by
  by_cases hwhole : d.IsWhole
  · exact .inl ⟨d, read_of_isWhole hwhole⟩
  · obtain ⟨m, e, m', e', hq⟩ := exists_written hwhole
    rw [hq.read hwhole rfl]
    split
    · exact .inl ⟨_, rfl⟩
    · exact .inr ⟨_, rfl⟩

theorem survives_of_lt (h : d.toNanos < 2 ^ 32 * nanosPerMilli) : d.Survives := by
  by_cases hwhole : d.IsWhole
  · exact .inl hwhole
  · obtain ⟨m, e, m', e', hq⟩ := exists_written hwhole
    have hsize : d.toNanos < UInt64.size := by
      unfold nanosPerMilli UInt64.size at *
      omega
    exact .inr ((hq.nanos (hq.exact h)).trans (if_pos hsize))

/-- Eleven nanoseconds above the bound, one of them is lost. -/
example : ¬ Survives ⟨4294967, 296000011, by decide⟩ := by decide +kernel

/-- No more nanoseconds are read from a fraction than a word holds. -/
theorem lt_of_survives (h : d.Survives) (hwhole : ¬ d.IsWhole) : d.toNanos < UInt64.size := by
  obtain ⟨m, e, m', e', hq⟩ := exists_written hwhole
  rw [Survives, or_iff_right hwhole, hq.nanos rfl] at h
  split at h
  · rename_i hlt
    exact Option.some.inj h ▸ hlt
  · cases h

/-- Well above a word of nanoseconds a fraction of milliseconds is refused. -/
theorem refused_of_le (hwhole : ¬ d.IsWhole) (h : 2 ^ 64 + 2 ^ 14 ≤ d.toNanos) :
    ∃ x, ofMillisValue d.toMillisValue = .error (.millisOutOfRange x) := by
  obtain ⟨m, e, m', e', hq⟩ := exists_written hwhole
  have hround := Binary.abs_sub_roundedMagnitude_le false m' e'
  have hread := hq.read hwhole rfl
  have hrelative := hq.relative
  generalize Binary.roundedMagnitude (.finite false m' e') = n at hround hread
  have h' : (2 : ℚ) ^ 64 + 2 ^ 14 ≤ d.toNanos := by exact_mod_cast h
  obtain ⟨hlow, -⟩ := abs_le.mp hrelative
  obtain ⟨-, hhigh⟩ := abs_le.mp hround
  have hn : ((2 ^ 64 : Nat) : ℚ) ≤ n := by
    push_cast
    linarith
  have hsize : UInt64.size ≤ n := Nat.cast_le.mp hn
  exact ⟨d.quotient, hread.trans (if_neg (Nat.not_lt.mpr hsize))⟩

/-- Two durations differ by `2 ^ 13` nanoseconds at most. -/
def Near (d d' : Duration) : Prop :=
  d'.toNanos ≤ d.toNanos + 2 ^ 13 ∧ d.toNanos ≤ d'.toNanos + 2 ^ 13

/-- What is read is near what was written. -/
theorem near_of_read (h : ofMillisValue d.toMillisValue = .ok d') : Near d d' := by
  by_cases hwhole : d.IsWhole
  · cases (read_of_isWhole hwhole).symm.trans h
    exact ⟨Nat.le_add_right _ _, Nat.le_add_right _ _⟩
  · obtain ⟨m, e, m', e', hq⟩ := exists_written hwhole
    have hround := Binary.abs_sub_roundedMagnitude_le false m' e'
    have hread := (hq.read hwhole rfl).symm.trans h
    have hrelative := hq.relative
    generalize Binary.roundedMagnitude (.finite false m' e') = n at hround hread
    split at hread
    · rename_i hlt
      rw [← Except.ok.inj hread, Near, toNanos_ofNanos_of_lt hlt]
      have hlt' : (n : ℚ) < 2 ^ 64 := by exact_mod_cast hlt
      obtain ⟨hlow, hhigh⟩ := abs_le.mp hrelative
      obtain ⟨hlow', hhigh'⟩ := abs_le.mp hround
      have hle : (n : ℚ) < (d.toNanos + 2 ^ 13 + 1 : Nat) := by
        push_cast
        linarith
      have hge : (d.toNanos : ℚ) < (n + 2 ^ 13 + 1 : Nat) := by
        push_cast
        linarith
      exact ⟨Nat.lt_succ_iff.mp (Nat.cast_lt.mp hle), Nat.lt_succ_iff.mp (Nat.cast_lt.mp hge)⟩
    · cases hread

end Reattempt.Duration
