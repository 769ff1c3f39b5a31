import Reattempt.Proofs.Duration.Millis

/-!
# The forms of a whole number of milliseconds

A natural number of milliseconds can be handed over as an unsigned word, as a signed
one or as a floating-point number that is just that number. The words are exact. The
floating-point form is multiplied in floating point, so it says the same as long as the
product is a number of the format, and it is refused from the first number on whose
nanoseconds no word holds.
-/

namespace Reattempt

namespace Number

variable {n k p : Nat} {e g : Int} {x : Binary}

/-- Once its factors of two are taken out, the significand of 64 bits has room for it. -/
def IsExact (n : Nat) : Prop := ∃ m k, m < 2 ^ 53 ∧ n = m * 2 ^ k

namespace Binary

/-- The number is `n`, with either sign if that is zero. -/
def IsNat (x : Binary) (n : Nat) : Prop :=
  ∃ negative m e, x = .finite negative m e ∧ double.Holds m e ∧ (m * 2 ^ e : ℚ) = n ∧
    (negative = true → m = 0)

theorem IsNat.eq_zero (h : x.IsNat 0) : ∃ negative, x = .finite negative 0 double.minExponent := by
  obtain ⟨negative, m, e, rfl, hholds, hvalue, -⟩ := h
  have hunit : (2 : ℚ) ^ e ≠ 0 := by positivity
  obtain rfl : m = 0 := by simpa [hunit] using hvalue
  have he : e = double.minExponent := hholds.normal.resolve_right (by decide)
  exact ⟨negative, by rw [he]⟩

theorem IsNat.eq_finite (h : x.IsNat n) (hn : 0 < n) :
    ∃ m e, x = .finite false m e ∧ 0 < m ∧ (m * 2 ^ e : ℚ) = n := by
  obtain ⟨negative, m, e, rfl, -, hvalue, hsign⟩ := h
  have hm : m ≠ 0 := by
    rintro rfl
    have hzero : (n : ℚ) = 0 := by rw [← hvalue, Nat.cast_zero, zero_mul]
    exact hn.ne' (Nat.cast_eq_zero.mp hzero)
  cases negative with
  | false => exact ⟨m, e, rfl, Nat.pos_of_ne_zero hm, hvalue⟩
  | true => exact absurd (hsign rfl) hm

/-- The product of two natural numbers is rounded once. -/
theorem IsNat.mul_eq (h : x.IsNat n) (hn : 0 < n) (hk : 0 < k) (hvalue : (p * 2 ^ g : ℚ) = k) :
    x.mul double (.finite false p g) = ofNat double (n * k) := by
  obtain ⟨m, e, rfl, hm, hvalue'⟩ := h.eq_finite hn
  have hp : 0 < p := by
    refine Nat.pos_of_ne_zero ?_
    rintro rfl
    rw [Nat.cast_zero, zero_mul] at hvalue
    exact hk.ne (Nat.cast_injective (R := ℚ) (by simpa using hvalue))
  have hmul : (finite false m e).mul double (.finite false p g) =
      nearest double false ((m * p) <<< (e + g).toNat) (1 <<< (-(e + g)).toNat) := rfl
  have hnum : 0 < (m * p) <<< (e + g).toNat := by
    rw [Nat.shiftLeft_eq]
    positivity
  have hden : 0 < 1 <<< (-(e + g)).toNat := by
    rw [Nat.shiftLeft_eq]
    positivity
  rw [hmul, ofNat]
  refine nearest_congr hnum hden (Nat.mul_pos hn hk) Nat.one_pos ?_
  rw [scaled_div, zpow_add₀ (by norm_num)]
  push_cast
  rw [← hvalue, ← hvalue']
  ring

theorem roundedMagnitude_zero : roundedMagnitude (ofNat double 0) = 0 := by decide +kernel

/-- A natural number that the format has is not rounded. -/
theorem roundedMagnitude_ofNat (hlt : n < 2 ^ 64) (h : IsExact n) :
    roundedMagnitude (ofNat double n) = n := by
  rcases Nat.eq_zero_or_pos n with rfl | hn
  · exact roundedMagnitude_zero
  obtain ⟨a, k, ha, rfl⟩ := h
  have hpos : 0 < a := Nat.pos_of_mul_pos_right hn
  have hk : k < 64 := by
    have hle : 2 ^ k ≤ a * 2 ^ k := Nat.le_mul_of_pos_left _ hpos
    exact (Nat.pow_lt_pow_iff_right (by decide)).mp (hle.trans_lt hlt)
  obtain ⟨m, e, hholds, hm, hvalue⟩ := exists_holds hpos ha (k := k) (by omega)
  have hnumber : ofNat double (a * 2 ^ k) = .finite false m e :=
    nearest_of_holds hholds (by decide) hm hn Nat.one_pos (by push_cast; simp [hvalue])
  rw [hnumber]
  exact roundedMagnitude_eq (by push_cast; rw [hvalue, sub_self, abs_zero]; norm_num)

theorem moderate_of_lt (hn : 0 < n) (hlt : n < 2 ^ 100) : Moderate n := by
  have hn' : (1 : ℚ) ≤ n := by exact_mod_cast hn
  have hlt' : (n : ℚ) < 2 ^ 100 := by exact_mod_cast hlt
  exact ⟨le_trans (by norm_num) hn', by rwa [zpow_ofNat]⟩

/-- A number as large as this is a whole number of units. -/
theorem exponent_nonneg {m : Nat} (hm : m < 2 ^ 53) (h : (2 : ℚ) ^ 52 ≤ m * 2 ^ e) : 0 ≤ e := by
  by_contra hneg
  have hunit : (2 : ℚ) ^ e ≤ 2 ^ (-1 : Int) := two_zpow_mono (by omega)
  have hle : (m : ℚ) * 2 ^ e ≤ m * 2 ^ (-1 : Int) :=
    mul_le_mul_of_nonneg_left hunit (Nat.cast_nonneg m)
  have hm' : (m : ℚ) < 2 ^ 53 := by exact_mod_cast hm
  norm_num at hle
  linarith

theorem isExact_of_roundedMagnitude (hlt : n < 2 ^ 100)
    (h : roundedMagnitude (ofNat double n) = n) : IsExact n := by
  -- Below the significand's limit there is nothing to show; above it the unit is at least one.
  rcases Nat.lt_or_ge n (2 ^ 53) with hsmall | hlarge
  · exact ⟨n, 0, hsmall, by rw [pow_zero, Nat.mul_one]⟩
  · have hn : 0 < n := by omega
    obtain ⟨m, e, hnumber, hround⟩ := ofNat_rounds hn (moderate_of_lt hn hlt)
    have hnear := abs_sub_roundedMagnitude_le false m e
    rw [← hnumber, h] at hnear
    obtain ⟨hlow, -⟩ := abs_le.mp hnear
    have hlarge' : (2 : ℚ) ^ 53 ≤ n := by exact_mod_cast hlarge
    have he : 0 ≤ e := exponent_nonneg hround.holds.lt (by linarith)
    obtain ⟨k, rfl⟩ := Int.eq_ofNat_of_zero_le he
    have hvalue : (m * 2 ^ (k : Int) : ℚ) = (m * 2 ^ k : Nat) := by
      push_cast
      rw [zpow_natCast]
    refine ⟨m, k, hround.holds.lt, ?_⟩
    rw [← h, hnumber]
    exact roundedMagnitude_eq (by rw [hvalue, sub_self, abs_zero]; norm_num)

/-- In a word, rounding to a number of the format moves a natural number by half the largest unit
there at most. -/
theorem roundedMagnitude_near (hlt : n < 2 ^ 64) :
    roundedMagnitude (ofNat double n) ≤ n + 2 ^ 10 ∧
      n ≤ roundedMagnitude (ofNat double n) + 2 ^ 10 := by
  rcases Nat.eq_zero_or_pos n with rfl | hn
  · rw [roundedMagnitude_zero]
    decide
  obtain ⟨m, e, hnumber, hround⟩ := ofNat_rounds hn (moderate_of_lt hn (hlt.trans (by decide)))
  have hlt' : (n : ℚ) < 2 ^ (64 : Int) := by exact_mod_cast hlt
  obtain ⟨hlow, hhigh⟩ := abs_le.mp (hround.absolute 64 (by decide) hlt')
  obtain ⟨hlow', hhigh'⟩ := abs_le.mp (abs_sub_roundedMagnitude_le false m e)
  rw [← hnumber] at hlow' hhigh'
  generalize roundedMagnitude (ofNat double n) = r at *
  norm_num at hlow hhigh
  have hle : (r : ℚ) < (n + 2 ^ 10 + 1 : Nat) := by
    push_cast
    linarith
  have hge : (n : ℚ) < (r + 2 ^ 10 + 1 : Nat) := by
    push_cast
    linarith
  exact ⟨Nat.lt_succ_iff.mp (Nat.cast_lt.mp hle), Nat.lt_succ_iff.mp (Nat.cast_lt.mp hge)⟩

/-- What is a little above a word is rounded to nothing below it. -/
theorem le_roundedMagnitude (hn : 2 ^ 64 + 2 ^ 12 ≤ n) (hlt : n < 2 ^ 100) :
    2 ^ 64 ≤ roundedMagnitude (ofNat double n) := by
  obtain ⟨m, e, hnumber, hround⟩ := ofNat_rounds (by omega) (moderate_of_lt (by omega) hlt)
  have hn' : (2 : ℚ) ^ 64 + 2 ^ 12 ≤ n := by exact_mod_cast hn
  obtain ⟨-, hhigh⟩ := abs_le.mp hround.relative
  obtain ⟨-, hhigh'⟩ := abs_le.mp (abs_sub_roundedMagnitude_le false m e)
  rw [← hnumber] at hhigh'
  generalize roundedMagnitude (ofNat double n) = r at *
  have hle : ((2 ^ 64 : Nat) : ℚ) ≤ r := by
    push_cast
    linarith
  exact Nat.cast_le.mp hle

end Binary

end Number

namespace Duration

open Number

variable {n : Nat} {x : Binary}

/-- The same value, or a refusal in both cases. -/
def SameOutcome {ρ α : Type} (a b : Except ρ α) : Prop := a.toOption = b.toOption

/-- How the forms of `n` milliseconds are read, `x` being the floating-point one. -/
structure FormsOf (n : Nat) (x : Binary) : Prop where
  /-- As an unsigned word it is never refused and exact. -/
  unsigned : ∃ d, ofMillisValue (.natural n.toUInt64) = .ok d ∧ d.toNanos = n * nanosPerMilli
  /-- So it is as a signed word, if one holds it. -/
  signed : n < 2 ^ 63 →
    ofMillisValue (.signed (Int64.ofNat n)) = ofMillisValue (.natural n.toUInt64)
  /-- As a floating-point number it is refused if no word holds its nanoseconds, and only as out
  of range. -/
  refused : 2 ^ 64 ≤ n * nanosPerMilli → ofMillisValue (.floating x) = .error (.millisOutOfRange x)
  /-- Otherwise it is read as its nanoseconds, rounded to a number of the format. -/
  read : n * nanosPerMilli < 2 ^ 64 → ∃ d, ofMillisValue (.floating x) = .ok d ∧
    d.toNanos = (Binary.ofNat double (n * nanosPerMilli)).roundedMagnitude ∧
    d.toNanos ≤ n * nanosPerMilli + 2 ^ 10 ∧ n * nanosPerMilli ≤ d.toNanos + 2 ^ 10
  /-- So the forms agree as long as the nanoseconds are a number of the format. -/
  agree : SameOutcome (ofMillisValue (.floating x)) (ofMillisValue (.natural n.toUInt64)) ↔
    n * nanosPerMilli < 2 ^ 64 ∧ IsExact (n * nanosPerMilli)
  /-- For the first eighteen years they always do. -/
  early : n ≤ 576460752303 →
    SameOutcome (ofMillisValue (.floating x)) (ofMillisValue (.natural n.toUInt64))

/-- The nanoseconds of whole milliseconds end in six zeros, so that rounding does not carry them
out of a word. -/
theorem roundedMagnitude_lt (h : n * nanosPerMilli < 2 ^ 64) :
    (Binary.ofNat double (n * nanosPerMilli)).roundedMagnitude < UInt64.size := by
  have hnear := (Binary.roundedMagnitude_near h).1
  unfold nanosPerMilli UInt64.size at *
  omega

theorem le_roundedMagnitude (h : 2 ^ 64 ≤ n * nanosPerMilli) (hn : n < 2 ^ 64) :
    UInt64.size ≤ (Binary.ofNat double (n * nanosPerMilli)).roundedMagnitude := by
  unfold nanosPerMilli at *
  exact Binary.le_roundedMagnitude (by omega) (by omega)

section Reading

variable (hx : x.IsNat n) (hn : n < 2 ^ 64)
include hx

theorem isFinite_of_isNat : x.isFinite = true ∧ x.isNegative = false := by
  obtain ⟨negative, m, e, rfl, -, -, hsign⟩ := hx
  refine ⟨rfl, ?_⟩
  cases negative with
  | false => rfl
  | true => simp [Binary.isNegative, hsign rfl]

include hn

/-- The nanoseconds are those of the word, rounded, if a word holds them. -/
theorem nanosOfMillis?_of_isNat : nanosOfMillis? x =
    if n * nanosPerMilli < 2 ^ 64 then
      some (Binary.ofNat double (n * nanosPerMilli)).roundedMagnitude
    else none := by
  rcases Nat.eq_zero_or_pos n with rfl | hpos
  · obtain ⟨negative, rfl⟩ := hx.eq_zero
    cases negative <;> decide +kernel
  · have hnanos : 0 < n * nanosPerMilli := Nat.mul_pos hpos (by decide)
    have hlt : n * nanosPerMilli < 2 ^ 100 := by
      unfold nanosPerMilli
      omega
    have hproduct : x.mul double million = Binary.ofNat double (n * nanosPerMilli) := by
      rw [million_eq]
      exact hx.mul_eq hpos (by decide) (by rw [million_value]; norm_num [nanosPerMilli])
    obtain ⟨m, e, hnumber, -⟩ := Binary.ofNat_rounds hnanos (Binary.moderate_of_lt hnanos hlt)
    have hfinite : (Binary.ofNat double (n * nanosPerMilli)).isFinite = true := by
      rw [hnumber]
      rfl
    simp only [nanosOfMillis?, hproduct, hfinite, true_and]
    by_cases hword : n * nanosPerMilli < 2 ^ 64
    · rw [if_pos hword, if_pos (roundedMagnitude_lt hword)]
    · have hle := le_roundedMagnitude (Nat.not_lt.mp hword) hn
      rw [if_neg hword, if_neg (Nat.not_lt.mpr hle)]

theorem ofMillisValue_of_isNat : ofMillisValue (.floating x) =
    if n * nanosPerMilli < 2 ^ 64 then
      .ok (ofNanos (Binary.ofNat double (n * nanosPerMilli)).roundedMagnitude)
    else .error (.millisOutOfRange x) := by
  obtain ⟨hfinite, hnegative⟩ := isFinite_of_isNat hx
  rw [ofMillisValue_floating hfinite hnegative, nanosOfMillis?_of_isNat hx hn]
  split <;> rfl

end Reading

theorem toNanos_unsigned (hn : n < 2 ^ 64) :
    (ofMillis n.toUInt64).toNanos = n * nanosPerMilli := by
  have hword : n.toUInt64.toNat = n := UInt64.toNat_ofNat_of_lt' hn
  rw [toNanos_ofMillis, hword]

/-- A signed word that is not negative is read as the unsigned one. -/
theorem ofMillisValue_signed (hn : n < 2 ^ 63) :
    ofMillisValue (.signed (Int64.ofNat n)) = .ok (ofMillis n.toUInt64) := by
  have hvalue : (Int64.ofNat n).toInt = n := Int64.toInt_ofNat_of_lt hn
  have hnonneg : ¬ Int64.ofNat n < 0 := by
    rw [Int64.lt_iff_toInt_lt, hvalue]
    simp
  rw [ofMillisValue, if_neg hnonneg, hvalue, Int.toNat_natCast]

/-- Two durations of a word of nanoseconds are the same if their nanoseconds are. -/
theorem ofNanos_eq_iff {r : Nat} (hr : r < UInt64.size) (hn : n < 2 ^ 64) :
    ofNanos r = ofMillis n.toUInt64 ↔ r = n * nanosPerMilli := by
  rw [← toNanos_unsigned hn]
  constructor
  · intro h
    rw [← h, toNanos_ofNanos_of_lt hr]
  · intro h
    exact toNanos_inj ((toNanos_ofNanos_of_lt hr).trans h)

theorem sameOutcome_iff (hn : n < 2 ^ 64) (hx : x.IsNat n) :
    SameOutcome (ofMillisValue (.floating x)) (ofMillisValue (.natural n.toUInt64)) ↔
      n * nanosPerMilli < 2 ^ 64 ∧ IsExact (n * nanosPerMilli) := by
  rw [ofMillisValue_of_isNat hx hn, SameOutcome]
  by_cases hword : n * nanosPerMilli < 2 ^ 64
  · have hread : ofNanos (Binary.ofNat double (n * nanosPerMilli)).roundedMagnitude =
        ofMillis n.toUInt64 ↔ IsExact (n * nanosPerMilli) := by
      rw [ofNanos_eq_iff (roundedMagnitude_lt hword) hn]
      exact ⟨Binary.isExact_of_roundedMagnitude (hword.trans (by decide)),
        Binary.roundedMagnitude_ofNat hword⟩
    rw [if_pos hword, and_iff_right hword, ← hread]
    exact Option.some_inj
  · rw [if_neg hword]
    exact iff_of_false nofun fun h => hword h.1

/-- Six of the factors of two in a million go into the exponent. -/
theorem isExact_nanos (h : n ≤ 576460752303) : IsExact (n * nanosPerMilli) :=
  ⟨n * 15625, 6, by omega, (Nat.mul_assoc n 15625 (2 ^ 6)).symm⟩

/-- A whole number of milliseconds is never refused as a word. As a floating-point number it is
refused from the first on whose nanoseconds no word holds, and it says the same before as long as
the nanoseconds are a number of the format. -/
theorem forms_of_isNat (hn : n < 2 ^ 64) (hx : x.IsNat n) : FormsOf n x where
  unsigned := ⟨_, rfl, toNanos_unsigned hn⟩
  signed := ofMillisValue_signed
  refused hword := by
    rw [ofMillisValue_of_isNat hx hn, if_neg (Nat.not_lt.mpr hword)]
  read hword := by
    have hnanos := toNanos_ofNanos_of_lt (roundedMagnitude_lt hword)
    rw [ofMillisValue_of_isNat hx hn, if_pos hword]
    refine ⟨_, rfl, hnanos, ?_⟩
    rw [hnanos]
    exact Binary.roundedMagnitude_near hword
  agree := sameOutcome_iff hn hx
  early h := by
    have hword : n * nanosPerMilli < 2 ^ 64 := by
      unfold nanosPerMilli
      omega
    exact (sameOutcome_iff hn hx).mpr ⟨hword, isExact_nanos h⟩

/-- The first number that is refused as a floating-point number: almost 585 years. -/
def firstRefused : Nat := 18446744073710

/-- The same as a floating-point number. -/
def firstRefusedFloating : Binary := .finite false (firstRefused * 2 ^ 8) (-8)

theorem isNat_firstRefused : firstRefusedFloating.IsNat firstRefused := by
  refine ⟨false, _, _, rfl, ⟨by decide, by decide, by decide, .inr (by decide)⟩, ?_, nofun⟩
  norm_num [firstRefused]

theorem forms_of_firstRefused : firstRefused < 2 ^ 64 ∧ firstRefusedFloating.IsNat firstRefused ∧
    FormsOf firstRefused firstRefusedFloating :=
  ⟨by decide, isNat_firstRefused, forms_of_isNat (by decide) isNat_firstRefused⟩

/-- The first number that is read as something else as a floating-point number. -/
def firstRounded : Nat := 576460752305

/-- The same as a floating-point number. -/
def firstRoundedFloating : Binary := .finite false (firstRounded * 2 ^ 13) (-13)

theorem isNat_firstRounded : firstRoundedFloating.IsNat firstRounded := by
  refine ⟨false, _, _, rfl, ⟨by decide, by decide, by decide, .inr (by decide)⟩, ?_, nofun⟩
  norm_num [firstRounded]

theorem not_isExact_firstRounded : ¬ IsExact (firstRounded * nanosPerMilli) := by
  intro h
  have hsame := Binary.roundedMagnitude_ofNat (by decide) h
  exact absurd hsame (by decide +kernel)

/-- A number that is refused in one form only, and one that is read in both as something else. -/
theorem forms_differ :
    (firstRefusedFloating.IsNat firstRefused ∧
      ¬ SameOutcome (ofMillisValue (.floating firstRefusedFloating))
        (ofMillisValue (.natural firstRefused.toUInt64))) ∧
    firstRoundedFloating.IsNat firstRounded ∧
      ¬ SameOutcome (ofMillisValue (.floating firstRoundedFloating))
        (ofMillisValue (.natural firstRounded.toUInt64)) := by
  refine ⟨⟨isNat_firstRefused, fun h => ?_⟩, isNat_firstRounded, fun h => ?_⟩
  · have hword := ((sameOutcome_iff (by decide) isNat_firstRefused).mp h).1
    exact absurd hword (by decide)
  · have hexact := ((sameOutcome_iff (by decide) isNat_firstRounded).mp h).2
    exact not_isExact_firstRounded hexact

end Duration

end Reattempt
