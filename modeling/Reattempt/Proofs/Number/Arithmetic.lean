import Reattempt.Proofs.Number.Nearest

/-!
# Errors of rounded arithmetic

Well inside the range of the format, a result is off by a relative error of half
a unit in its last place, and by an absolute error that the size of the exact
result bounds. Natural numbers that fit the significand are exact.
-/

namespace Reattempt.Number

variable {v : ℚ} {m n k : Nat} {e g : Int}

/-- A number of 64 bits, not zero, that a positive value was rounded to. -/
structure Rounds (v : ℚ) (m : Nat) (e : Int) : Prop where
  holds : double.Holds m e
  pos : 0 < m
  relative : |v - m * 2 ^ e| ≤ v / 2 ^ 53
  absolute : ∀ k : Int, -1021 ≤ k → v < 2 ^ k → |v - m * 2 ^ e| ≤ 2 ^ (k - 54)

/-- Values far from both ends of the exponents. -/
def Moderate (v : ℚ) : Prop := 2 ^ (-100 : Int) ≤ v ∧ v < 2 ^ (100 : Int)

namespace Binary

theorem nearest_rounds {negative : Bool} {num den : Nat} (hn : 0 < num) (hd : 0 < den)
    (h : Moderate (num / den)) : ∃ m e,
      nearest double negative num den = .finite negative m e ∧ Rounds (num / den) m e := by
  have hfits := double.fits_exponentOf hn hd
  have hle (k : Int) (hk : -1021 ≤ k) (hv : (num : ℚ) / den < 2 ^ k) :
      double.exponentOf num den ≤ k - 53 := hfits.le_of_lt hk hv
  have hmax : double.exponentOf num den < double.maxExponent :=
    (hle 100 (by decide) h.2).trans_lt (by decide)
  obtain ⟨m, e, hnearest, hholds, herror⟩ := nearest_of_exponentOf_lt (by decide) hn hd hmax
  have hpos : (0 : ℚ) < num / den := by positivity
  have hunit : (2 : ℚ) ^ (double.exponentOf num den - 1) ≤ num / den / 2 ^ 53 := by
    have hnormal : (2 : ℚ) ^ (52 + double.exponentOf num den) ≤ num / den := by
      rcases hfits.normal with hmin | hle
      · exact (two_zpow_mono (by rw [hmin]; decide)).trans h.1
      · exact hle
    rw [le_div_iff₀ (by norm_num), ← zpow_natCast, ← zpow_add₀ (by norm_num)]
    exact (two_zpow_mono (by omega)).trans hnormal
  have hrelative := herror.trans hunit
  refine ⟨m, e, hnearest, hholds, ?_, hrelative, fun k hk hv => ?_⟩
  · rcases Nat.eq_zero_or_pos m with rfl | hm
    · rw [Nat.cast_zero, zero_mul, sub_zero, abs_of_pos hpos] at hrelative
      linarith
    · exact hm
  · have hexponent := hle k hk hv
    exact herror.trans (two_zpow_mono (by omega))

theorem scaled_div (m : Nat) (e : Int) (n : Nat) :
    ((m <<< e.toNat : Nat) : ℚ) / (n <<< (-e).toNat : Nat) = m * 2 ^ e / n := by
  rw [Nat.shiftLeft_eq, Nat.shiftLeft_eq]
  obtain ⟨k, rfl | rfl⟩ := e.eq_nat_or_neg
  · simp
  · simp
    field_simp

theorem nearestScaled_rounds {negative : Bool} (hm : 0 < m) (hn : 0 < n)
    (h : Moderate (m * 2 ^ e / n)) : ∃ m' e',
      nearestScaled double negative m e n = .finite negative m' e' ∧
      Rounds (m * 2 ^ e / n) m' e' := by
  have hnum : 0 < m <<< e.toNat := by rw [Nat.shiftLeft_eq]; positivity
  have hden : 0 < n <<< (-e).toNat := by rw [Nat.shiftLeft_eq]; positivity
  rw [nearestScaled, ← scaled_div]
  rw [← scaled_div] at h
  exact nearest_rounds hnum hden h

theorem ofNat_rounds (hn : 0 < n) (h : Moderate n) :
    ∃ m e, ofNat double n = .finite false m e ∧ Rounds n m e := by
  have hone : (n : ℚ) = n / (1 : Nat) := by simp
  rw [ofNat, hone]
  rw [hone] at h
  exact nearest_rounds hn Nat.one_pos h

theorem mul_rounds {a b : Bool} (hm : 0 < m) (hn : 0 < n)
    (h : Moderate (m * 2 ^ e * (n * 2 ^ g))) : ∃ m' e',
      mul double (.finite a m e) (.finite b n g) = .finite (a != b) m' e' ∧
      Rounds (m * 2 ^ e * (n * 2 ^ g)) m' e' := by
  have hvalue : (m * 2 ^ e * (n * 2 ^ g) : ℚ) = (m * n : Nat) * 2 ^ (e + g) / (1 : Nat) := by
    rw [zpow_add₀ (by norm_num)]
    push_cast
    ring
  rw [mul, hvalue]
  rw [hvalue] at h
  exact nearestScaled_rounds (Nat.mul_pos hm hn) Nat.one_pos h

theorem div_rounds {a b : Bool} (hm : 0 < m) (hn : 0 < n)
    (h : Moderate (m * 2 ^ e / (n * 2 ^ g))) : ∃ m' e',
      div double (.finite a m e) (.finite b n g) = .finite (a != b) m' e' ∧
      Rounds (m * 2 ^ e / (n * 2 ^ g)) m' e' := by
  have hvalue : (m * 2 ^ e / (n * 2 ^ g) : ℚ) = m * 2 ^ (e - g) / n := by
    rw [zpow_sub₀ (by norm_num)]
    field_simp
  rw [div, if_neg hn.ne', hvalue]
  rw [hvalue] at h
  exact nearestScaled_rounds hm hn h

/-! ## Integers -/

/-- What the significand has room for is a number of the format, and so are its multiples by
powers of two that are not too large. -/
theorem exists_holds (hn : 0 < n) (h : n < 2 ^ 53) (hk : k ≤ 900) : ∃ m e,
    double.Holds m e ∧ 0 < m ∧ (m * 2 ^ e : ℚ) = n * 2 ^ k := by
  have hlog : n.log2 < 53 := (Nat.log2_lt hn.ne').mpr h
  have hlow := Nat.log2_self_le hn.ne'
  have hhigh := Nat.lt_log2_self (n := n)
  generalize n.log2 = l at *
  have hsplit : 2 ^ 52 = 2 ^ l * 2 ^ (52 - l) := by rw [← Nat.pow_add]; congr 1; omega
  have hsplit' : 2 ^ 53 = 2 ^ (l + 1) * 2 ^ (52 - l) := by rw [← Nat.pow_add]; congr 1; omega
  have hvalue : ((n * 2 ^ (52 - l) : Nat) : ℚ) * 2 ^ ((k : Int) - (52 - l : Nat)) = n * 2 ^ k := by
    rw [zpow_sub₀ (by norm_num), zpow_natCast, zpow_natCast]
    push_cast
    field_simp
  have hlt : n * 2 ^ (52 - l) < 2 ^ 53 :=
    hsplit' ▸ Nat.mul_lt_mul_of_pos_right hhigh (Nat.two_pow_pos _)
  have hge : 2 ^ 52 ≤ n * 2 ^ (52 - l) := hsplit ▸ Nat.mul_le_mul_right _ hlow
  have hholds : double.Holds (n * 2 ^ (52 - l)) (k - (52 - l : Nat)) :=
    ⟨hlt, show (-1074 : Int) ≤ _ by omega, show _ ≤ (971 : Int) by omega, .inr hge⟩
  exact ⟨_, _, hholds, Nat.mul_pos hn (Nat.two_pow_pos _), hvalue⟩

/-- Natural numbers that the significand has room for are numbers of the format. -/
theorem ofNat_exact (hn : 0 < n) (h : n < 2 ^ 53) : ∃ m e,
    ofNat double n = .finite false m e ∧ 0 < m ∧ (m * 2 ^ e : ℚ) = n := by
  obtain ⟨m, e, hholds, hm, hvalue⟩ := exists_holds hn h (k := 0) (by decide)
  rw [pow_zero, mul_one] at hvalue
  exact ⟨m, e, nearest_of_holds hholds (by decide) hm hn Nat.one_pos (by rw [hvalue]; simp), hm,
    hvalue⟩

/-- The nearest integer is off by a half at most. -/
theorem abs_sub_roundedMagnitude_le (negative : Bool) (m : Nat) (e : Int) :
    |(m * 2 ^ e : ℚ) - roundedMagnitude (.finite negative m e)| ≤ 1 / 2 := by
  have hpos : 0 < 1 <<< (-e).toNat := by rw [Nat.shiftLeft_eq]; positivity
  have hvalue : (m * 2 ^ e : ℚ) = (m <<< e.toNat : Nat) / (1 <<< (-e).toNat : Nat) := by
    rw [scaled_div]
    simp
  rw [hvalue, roundedMagnitude]
  generalize m <<< e.toNat = num
  generalize 1 <<< (-e).toNat = den at hpos
  have hden : (0 : ℚ) < den := Nat.cast_pos.mpr hpos
  have hdiv := Nat.div_add_mod (2 * num + den) (2 * den)
  have hmod := Nat.mod_lt (2 * num + den) (y := 2 * den) (by omega)
  generalize (2 * num + den) / (2 * den) = q at *
  have hlow : 2 * den * q ≤ 2 * num + den := by omega
  have hhigh : 2 * num + den < 2 * den * q + 2 * den := by omega
  have hlow' : 2 * (den : ℚ) * q ≤ 2 * num + den := by exact_mod_cast hlow
  have hhigh' : 2 * (num : ℚ) + den < 2 * den * q + 2 * den := by exact_mod_cast hhigh
  rw [abs_le, div_sub' hden.ne', le_div_iff₀ hden, div_le_iff₀ hden]
  constructor <;> linarith

/-- What is nearer to an integer than a half is rounded to it. -/
theorem roundedMagnitude_eq {negative : Bool} (h : |(m * 2 ^ e : ℚ) - n| < 1 / 2) :
    roundedMagnitude (.finite negative m e) = n := by
  have hround := abs_sub_roundedMagnitude_le negative m e
  generalize roundedMagnitude (.finite negative m e) = k at *
  obtain ⟨hlow, hhigh⟩ := abs_lt.mp h
  obtain ⟨hlow', hhigh'⟩ := abs_le.mp hround
  have hle : (k : ℚ) < (n + 1 : Nat) := by
    push_cast
    linarith
  have hge : (n : ℚ) < (k + 1 : Nat) := by
    push_cast
    linarith
  have := Nat.cast_lt.mp hle
  have := Nat.cast_lt.mp hge
  omega

end Binary

end Reattempt.Number
