import Mathlib.Algebra.Order.Field.Power
import Mathlib.Algebra.Order.Field.Rat
import Mathlib.Tactic.FieldSimp
import Mathlib.Tactic.Linarith
import Mathlib.Tactic.NormNum
import Mathlib.Tactic.Positivity
import Mathlib.Tactic.Ring
import Reattempt.Number.Binary

/-!
# Rounding to binary numbers

What a fraction is rounded to depends on its value alone. A number of the format
is rounded to itself, and whatever is rounded moves by half a unit of its last
place at most.
-/

namespace Reattempt.Number

/-! ## The nearest natural number -/

theorem halfEven_mul_right (n d : Nat) {k : Nat} (hk : 0 < k) :
    halfEven (n * k) (d * k) = halfEven n d := by
  have hquot : n * k / (d * k) = n / d := Nat.mul_div_mul_right n d hk
  have hrem : n * k % (d * k) = n % d * k := Nat.mul_mod_mul_right k n d
  have hdouble (a b : Nat) : 2 * (a * k) < b * k ↔ 2 * a < b := by
    rw [← Nat.mul_assoc]
    exact Nat.mul_lt_mul_right hk
  have hdouble' (a b : Nat) : b * k < 2 * (a * k) ↔ b < 2 * a := by
    rw [← Nat.mul_assoc]
    exact Nat.mul_lt_mul_right hk
  simp only [halfEven, hquot, hrem, hdouble, hdouble']

theorem halfEven_congr {n d n' d' : Nat} (hd : 0 < d) (hd' : 0 < d')
    (h : (n : ℚ) / d = n' / d') : halfEven n d = halfEven n' d' := by
  have hpos : (0 : ℚ) < d := Nat.cast_pos.mpr hd
  have hpos' : (0 : ℚ) < d' := Nat.cast_pos.mpr hd'
  rw [div_eq_div_iff hpos.ne' hpos'.ne'] at h
  have hcross : n * d' = n' * d := by exact_mod_cast h
  rw [← halfEven_mul_right n d hd', ← halfEven_mul_right n' d' hd, hcross, Nat.mul_comm d d']

theorem halfEven_of_eq {n d m : Nat} (hd : 0 < d) (h : (n : ℚ) / d = m) : halfEven n d = m := by
  have hone : (m : ℚ) = m / (1 : Nat) := by simp
  rw [halfEven_congr hd Nat.one_pos (h.trans hone)]
  simp [halfEven, Nat.mod_one]

theorem halfEven_bounds (n : Nat) {d : Nat} (hd : 0 < d) :
    2 * n ≤ 2 * (halfEven n d * d) + d ∧ 2 * (halfEven n d * d) ≤ 2 * n + d := by
  have hdiv := Nat.div_add_mod n d
  have hmod := Nat.mod_lt n hd
  have hsucc : (n / d + 1) * d = d * (n / d) + d := by ring
  have hsame : n / d * d = d * (n / d) := Nat.mul_comm _ _
  simp only [halfEven]
  split
  · omega
  · split
    · omega
    · split <;> omega

theorem abs_sub_halfEven_le (n : Nat) {d : Nat} (hd : 0 < d) :
    |(n : ℚ) / d - halfEven n d| ≤ 1 / 2 := by
  have hpos : (0 : ℚ) < d := Nat.cast_pos.mpr hd
  obtain ⟨hlow, hhigh⟩ := halfEven_bounds n hd
  have hlow' : 2 * (n : ℚ) ≤ 2 * (halfEven n d * d) + d := by exact_mod_cast hlow
  have hhigh' : 2 * (halfEven n d * d : ℚ) ≤ 2 * n + d := by exact_mod_cast hhigh
  rw [abs_le, div_sub' hpos.ne', le_div_iff₀ hpos, div_le_iff₀ hpos]
  constructor <;> linarith

/-! ## The exponent -/

theorem two_zpow_mono {a b : Int} (h : a ≤ b) : (2 : ℚ) ^ a ≤ 2 ^ b :=
  zpow_le_zpow_right₀ (by norm_num) h

theorem unscale_pos (e : Int) (num : Nat) {den : Nat} (hd : 0 < den) :
    0 < (unscale e num den).2 := by
  show 0 < den <<< e.toNat
  rw [Nat.shiftLeft_eq]
  positivity

/-- The value of a fraction, in units of `2 ^ e`. -/
theorem unscale_div (e : Int) (num : Nat) {den : Nat} (hd : 0 < den) :
    ((unscale e num den).1 : ℚ) / (unscale e num den).2 = num / den / 2 ^ e := by
  have hpos : (0 : ℚ) < den := Nat.cast_pos.mpr hd
  rw [unscale, Nat.shiftLeft_eq, Nat.shiftLeft_eq]
  obtain ⟨k, rfl | rfl⟩ := e.eq_nat_or_neg
  · simp [div_div]
  · simp
    field_simp

namespace Format

variable {f : Format} {v : ℚ} {m : Nat} {e e' : Int}

/-- The exponent with which a number of the size of `v` is written. -/
structure Fits (f : Format) (v : ℚ) (e : Int) : Prop where
  least : f.minExponent ≤ e
  lt : v < 2 ^ (f.precision + e)
  normal : e = f.minExponent ∨ 2 ^ (f.precision - 1 + e) ≤ v

theorem Fits.le (h : f.Fits v e) (h' : f.Fits v e') : e ≤ e' := by
  by_contra hlt
  rcases h.normal with hmin | hle
  · exact hlt (hmin ▸ h'.least)
  · have hpow : (2 : ℚ) ^ (f.precision + e') ≤ 2 ^ (f.precision - 1 + e) :=
      zpow_le_zpow_right₀ (by norm_num) (by omega)
    exact absurd h'.lt (not_lt.mpr (hpow.trans hle))

theorem Fits.unique (h : f.Fits v e) (h' : f.Fits v e') : e = e' :=
  Int.le_antisymm (h.le h') (h'.le h)

/-- Below `2 ^ k` the exponent is small. -/
theorem Fits.le_of_lt (h : f.Fits v e) {k : Int} (hk : f.minExponent + f.precision ≤ k)
    (hv : v < 2 ^ k) : e ≤ k - f.precision := by
  rcases h.normal with hmin | hle
  · omega
  · have hpow := (zpow_lt_zpow_iff_right₀ (by norm_num : (1 : ℚ) < 2)).mp (hle.trans_lt hv)
    omega

theorem unscale_le_iff (e : Int) (num : Nat) {den : Nat} (hd : 0 < den) (p : Nat) :
    (unscale e num den).2 <<< p ≤ (unscale e num den).1 ↔ (2 : ℚ) ^ (p + e) ≤ num / den := by
  have hpos : (0 : ℚ) < (unscale e num den).2 := Nat.cast_pos.mpr (unscale_pos e num hd)
  have htwo : (0 : ℚ) < 2 ^ e := by positivity
  rw [Nat.shiftLeft_eq, zpow_add₀ (by norm_num : (2 : ℚ) ≠ 0), ← le_div_iff₀ htwo,
    ← unscale_div e num hd, le_div_iff₀ hpos, zpow_natCast]
  rw [← Nat.cast_le (α := ℚ)]
  push_cast
  rw [mul_comm]

theorem div_lt_two_zpow (num : Nat) {den : Nat} (hd : 0 < den) :
    (num : ℚ) / den < 2 ^ ((num.log2 : Int) - den.log2 + 1) := by
  have hpos : (0 : ℚ) < den := Nat.cast_pos.mpr hd
  have hnum : (num : ℚ) < 2 ^ (num.log2 + 1) := by exact_mod_cast Nat.lt_log2_self
  have hden : (2 : ℚ) ^ den.log2 ≤ den := by exact_mod_cast Nat.log2_self_le hd.ne'
  have hsum : (num.log2 : Int) - den.log2 + 1 = (num.log2 + 1 : Nat) - den.log2 := by omega
  rw [hsum, zpow_sub₀ (by norm_num), zpow_natCast, zpow_natCast]
  exact div_lt_div₀ hnum hden (by positivity) (by positivity)

theorem two_zpow_le_div {num den : Nat} (hn : 0 < num) (hd : 0 < den) :
    (2 : ℚ) ^ ((num.log2 : Int) - den.log2 - 1) ≤ num / den := by
  have hpos : (0 : ℚ) < den := Nat.cast_pos.mpr hd
  have hnum : (2 : ℚ) ^ num.log2 ≤ num := by exact_mod_cast Nat.log2_self_le hn.ne'
  have hden : (den : ℚ) ≤ 2 ^ (den.log2 + 1) := by exact_mod_cast Nat.lt_log2_self.le
  have hsum : (num.log2 : Int) - den.log2 - 1 = num.log2 - (den.log2 + 1 : Nat) := by omega
  rw [hsum, zpow_sub₀ (by norm_num), zpow_natCast, zpow_natCast]
  exact div_le_div₀ (by positivity) hnum hpos hden

theorem fits_exponentOf (f : Format) {num den : Nat} (hn : 0 < num) (hd : 0 < den) :
    f.Fits (num / den) (f.exponentOf num den) := by
  have hlt := div_lt_two_zpow num hd
  have hle := two_zpow_le_div hn hd
  simp only [exponentOf]
  generalize he : max f.minExponent ((num.log2 : Int) - den.log2 - f.precision) = e
  split
  · rename_i hc
    rw [unscale_le_iff e num hd] at hc
    exact ⟨by omega, hlt.trans_le (two_zpow_mono (by omega)), .inr (by convert hc using 2; ring)⟩
  · rename_i hc
    rw [unscale_le_iff e num hd, not_le] at hc
    refine ⟨by omega, hc, ?_⟩
    rcases Int.le_total ((num.log2 : Int) - den.log2 - f.precision) f.minExponent with h | h
    · exact .inl (by omega)
    · exact .inr ((two_zpow_mono (by omega)).trans hle)

theorem exponentOf_eq {num den : Nat} (hn : 0 < num) (hd : 0 < den) (h : f.Fits (num / den) e) :
    f.exponentOf num den = e := (f.fits_exponentOf hn hd).unique h

/-- The significands and exponents of the format, each number being written in one way. -/
structure Holds (f : Format) (m : Nat) (e : Int) : Prop where
  lt : m < 2 ^ f.precision
  least : f.minExponent ≤ e
  most : e ≤ f.maxExponent
  normal : e = f.minExponent ∨ 2 ^ (f.precision - 1) ≤ m

theorem Holds.fits (h : f.Holds m e) (hp : 0 < f.precision) : f.Fits (m * 2 ^ e) e where
  least := h.least
  lt := by
    have hm : (m : ℚ) < 2 ^ f.precision := by exact_mod_cast h.lt
    rw [zpow_add₀ (by norm_num), zpow_natCast]
    exact mul_lt_mul_of_pos_right hm (by positivity)
  normal := by
    refine h.normal.imp_right fun hm => ?_
    have hm' : (2 : ℚ) ^ (f.precision - 1) ≤ m := by exact_mod_cast hm
    have hexp : (f.precision - 1 : Int) = (f.precision - 1 : Nat) := by omega
    rw [zpow_add₀ (by norm_num), hexp, zpow_natCast]
    exact mul_le_mul_of_nonneg_right hm' (by positivity)

end Format

/-! ## The nearest number of a format -/

namespace Binary

open Format

variable {f : Format} {negative : Bool} {num den num' den' : Nat} {m : Nat} {e : Int}

theorem nearest_of_ne (he : f.exponentOf num den = e)
    (hm : halfEven (unscale e num den).1 (unscale e num den).2 = m) (hne : m ≠ 2 ^ f.precision)
    (hmax : e ≤ f.maxExponent) : nearest f negative num den =
      if m = 0 then .finite negative 0 f.minExponent else .finite negative m e := by
  simp [nearest, he, hm, Nat.one_shiftLeft, hne, hmax]

/-- The significand of the next power of two has one bit too many. -/
theorem nearest_of_eq (he : f.exponentOf num den = e)
    (hm : halfEven (unscale e num den).1 (unscale e num den).2 = 2 ^ f.precision)
    (hmax : e < f.maxExponent) : nearest f negative num den =
      .finite negative (2 ^ (f.precision - 1)) (e + 1) := by
  have hle : ¬ f.maxExponent < e + 1 := by omega
  simp [nearest, he, hm, Nat.one_shiftLeft, hle]

/-- Fractions of the same value are rounded to the same number. -/
theorem nearest_congr (hn : 0 < num) (hd : 0 < den) (hn' : 0 < num') (hd' : 0 < den')
    (h : (num : ℚ) / den = num' / den') :
    nearest f negative num den = nearest f negative num' den' := by
  have he : f.exponentOf num den = f.exponentOf num' den' :=
    exponentOf_eq hn hd (h ▸ f.fits_exponentOf hn' hd')
  have hm : halfEven (unscale (f.exponentOf num' den') num den).1
        (unscale (f.exponentOf num' den') num den).2 =
      halfEven (unscale (f.exponentOf num' den') num' den').1
        (unscale (f.exponentOf num' den') num' den').2 := by
    refine halfEven_congr (unscale_pos _ _ hd) (unscale_pos _ _ hd') ?_
    rw [unscale_div _ _ hd, unscale_div _ _ hd', h]
  simp only [nearest, he, hm]

/-- A number of the format is rounded to itself. -/
theorem nearest_of_holds (h : f.Holds m e) (hp : 0 < f.precision) (hm : 0 < m) (hn : 0 < num)
    (hd : 0 < den) (hv : (num : ℚ) / den = m * 2 ^ e) :
    nearest f negative num den = .finite negative m e := by
  have he : f.exponentOf num den = e := exponentOf_eq hn hd (hv ▸ h.fits hp)
  have hround : halfEven (unscale e num den).1 (unscale e num den).2 = m := by
    refine halfEven_of_eq (unscale_pos _ _ hd) ?_
    rw [unscale_div _ _ hd, hv]
    exact mul_div_cancel_right₀ _ (by positivity)
  rw [nearest_of_ne he hround h.lt.ne h.most, if_neg hm.ne']

/-- In units of its last place a fraction is rounded to a significand, or to the next power of
two. -/
theorem halfEven_unscale (hn : 0 < num) (hd : 0 < den) (he : f.exponentOf num den = e)
    (hp : 0 < f.precision) (hm : halfEven (unscale e num den).1 (unscale e num den).2 = m) :
    m ≤ 2 ^ f.precision ∧ (e = f.minExponent ∨ 2 ^ (f.precision - 1) ≤ m) ∧
      |(num : ℚ) / den - m * 2 ^ e| ≤ 2 ^ (e - 1) := by
  have hfits := he ▸ f.fits_exponentOf hn hd
  have hunit : (0 : ℚ) < 2 ^ e := by positivity
  have hscaled : |(num : ℚ) / den / 2 ^ e - m| ≤ 1 / 2 := by
    rw [← hm, ← unscale_div e num hd]
    exact abs_sub_halfEven_le _ (unscale_pos e num hd)
  generalize hv : (num : ℚ) / den = v at hfits hscaled ⊢
  obtain ⟨hlow, hhigh⟩ := abs_le.mp hscaled
  refine ⟨?_, ?_, ?_⟩
  · have hlt : v / 2 ^ e < 2 ^ f.precision := by
      have h := hfits.lt
      rwa [zpow_add₀ (by norm_num), zpow_natCast, ← div_lt_iff₀ hunit] at h
    have hle : (m : ℚ) < (2 ^ f.precision + 1 : Nat) := by
      push_cast
      linarith
    exact Nat.lt_succ_iff.mp (Nat.cast_lt.mp hle)
  · refine hfits.normal.imp_right fun hnormal => ?_
    have hexp : (f.precision - 1 : Int) = (f.precision - 1 : Nat) := by omega
    rw [hexp, zpow_add₀ (by norm_num), zpow_natCast, ← le_div_iff₀ hunit] at hnormal
    have hlt : ((2 ^ (f.precision - 1) : Nat) : ℚ) < (m + 1 : Nat) := by
      push_cast
      linarith
    exact Nat.lt_succ_iff.mp (Nat.cast_lt.mp hlt)
  · have hdiff : v - m * 2 ^ e = (v / 2 ^ e - m) * 2 ^ e := by
      field_simp
    rw [hdiff, abs_mul, abs_of_pos hunit, zpow_sub₀ (by norm_num), zpow_one]
    calc |v / 2 ^ e - m| * 2 ^ e ≤ 1 / 2 * 2 ^ e :=
          mul_le_mul_of_nonneg_right hscaled hunit.le
      _ = 2 ^ e / 2 := by ring

/-- Below the largest exponent a fraction is rounded to a number of the format, by half a unit
of its last place at most. -/
theorem nearest_of_exponentOf_lt (hp : 0 < f.precision) (hn : 0 < num) (hd : 0 < den)
    (hmax : f.exponentOf num den < f.maxExponent) : ∃ m e,
      nearest f negative num den = .finite negative m e ∧ f.Holds m e ∧
      |(num : ℚ) / den - m * 2 ^ e| ≤ 2 ^ (f.exponentOf num den - 1) := by
  have hleast := (f.fits_exponentOf hn hd).least
  generalize he : f.exponentOf num den = e at hleast hmax ⊢
  generalize hm : halfEven (unscale e num den).1 (unscale e num den).2 = m
  obtain ⟨hle, hnormal, herror⟩ := halfEven_unscale hn hd he hp hm
  have hhalf : 2 ^ f.precision = 2 ^ (f.precision - 1) * 2 := by
    rw [← Nat.pow_succ, Nat.succ_eq_add_one, Nat.sub_add_cancel hp]
  have hpow : 0 < 2 ^ (f.precision - 1) := Nat.two_pow_pos _
  by_cases hcarry : m = 2 ^ f.precision
  · subst hcarry
    refine ⟨_, _, nearest_of_eq he hm hmax, ⟨by omega, by omega, by omega, .inr (Nat.le_refl _)⟩, ?_⟩
    rw [hhalf] at herror
    rw [zpow_add₀ (by norm_num), zpow_one]
    push_cast at herror ⊢
    rwa [show (2 : ℚ) ^ (f.precision - 1) * (2 ^ e * 2) =
      2 ^ (f.precision - 1) * 2 * 2 ^ e by ring]
  · refine ⟨m, e, ?_, ⟨by omega, hleast, hmax.le, hnormal⟩, herror⟩
    rw [nearest_of_ne he hm hcarry hmax.le]
    split
    · rename_i hzero
      rw [hzero, hnormal.resolve_right (by omega)]
    · rfl

end Binary

end Reattempt.Number
