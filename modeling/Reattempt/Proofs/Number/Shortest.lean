import Reattempt.Number.Decimal
import Reattempt.Proofs.Number.Nearest

/-!
# Decimals that read back

What a decimal is read as depends on its value alone, so zeros may be moved
between its digits and its exponent. The shortest decimal of a binary number is
read as that number, whether its search succeeds or the number in full stands in.
-/

namespace Reattempt.Number

open Text

/-! ## The number of digits -/

theorem ofNat_eq_toDigits (n : Nat) : Digits.ofNat n = Nat.toDigits 10 n := by
  rw [Digits.ofNat, Nat.toString_eq_ofList_toDigits, String.toList_ofList]

theorem length_toString (n : Nat) : (toString n).length = (Nat.toDigits 10 n).length := by
  rw [Nat.toString_eq_ofList_toDigits, String.length_ofList]

theorem length_toDigits_mul_ten {n : Nat} (hn : 0 < n) :
    (Nat.toDigits 10 (n * 10)).length = (Nat.toDigits 10 n).length + 1 := by
  rw [Nat.toDigits_of_base_le (by decide) (by omega), Nat.mul_div_cancel n (by decide)]
  simp

theorem lt_ten_pow_length (n : Nat) : n < 10 ^ (Nat.toDigits 10 n).length :=
  (Nat.length_toDigits_le_iff (by decide) Nat.length_toDigits_pos).mp (Nat.le_refl _)

theorem ten_pow_length_le {n : Nat} (hn : 0 < n) : 10 ^ ((Nat.toDigits 10 n).length - 1) ≤ n := by
  rcases Nat.eq_zero_or_pos ((Nat.toDigits 10 n).length - 1) with h | h
  · rw [h]
    exact hn
  · by_contra hlt
    have hle := (Nat.length_toDigits_le_iff (by decide) h).mpr (Nat.not_le.mp hlt)
    omega

/-! ## Reading by value -/

namespace Binary

open Format

variable {f : Format} {negative : Bool} {digits m : Nat} {exponent e : Int}

theorem div_ten_pow (digits : Nat) (exponent : Int) :
    ((digits * Nat.pow 10 exponent.toNat : Nat) : ℚ) / (Nat.pow 10 (-exponent).toNat : Nat) =
      digits * 10 ^ exponent := by
  have hpow (k : Nat) : Nat.pow 10 k = 10 ^ k := rfl
  rw [hpow, hpow]
  obtain ⟨k, rfl | rfl⟩ := exponent.eq_nat_or_neg
  · simp
  · simp [div_eq_mul_inv]

theorem ten_pow_pos (k : Nat) : 0 < Nat.pow 10 k := Nat.pow_pos (by decide)

theorem ofDecimal_mul_ten (f : Format) (negative : Bool) {digits : Nat} (hd : 0 < digits)
    (exponent : Int) :
    ofDecimal f negative (digits * 10) (exponent - 1) = ofDecimal f negative digits exponent := by
  have htop : ((toString (digits * 10)).length : Int) + (exponent - 1) =
      (toString digits).length + exponent := by
    rw [length_toString, length_toString, length_toDigits_mul_ten hd]
    omega
  have hvalue : ((digits * 10 : Nat) : ℚ) * 10 ^ (exponent - 1) = digits * 10 ^ exponent := by
    rw [zpow_sub₀ (by norm_num)]
    push_cast
    ring
  have hnearest : nearest f negative (digits * 10 * Nat.pow 10 (exponent - 1).toNat)
        (Nat.pow 10 (-(exponent - 1)).toNat) =
      nearest f negative (digits * Nat.pow 10 exponent.toNat) (Nat.pow 10 (-exponent).toNat) := by
    refine nearest_congr ?_ (ten_pow_pos _) ?_ (ten_pow_pos _) ?_
    · exact Nat.mul_pos (by omega) (ten_pow_pos _)
    · exact Nat.mul_pos hd (ten_pow_pos _)
    · rw [div_ten_pow, div_ten_pow, hvalue]
  simp only [ofDecimal, htop, hnearest]
  simp [hd.ne']

/-- Zeros behind the digits stand for powers of ten. -/
theorem ofDecimal_mul_pow (f : Format) (negative : Bool) {digits : Nat} (hd : 0 < digits)
    (exponent : Int) (k : Nat) :
    ofDecimal f negative (digits * 10 ^ k) (exponent - k) = ofDecimal f negative digits exponent := by
  induction k with
  | zero => simp
  | succ k ih =>
    have hpos : 0 < digits * 10 ^ k := Nat.mul_pos hd (Nat.pow_pos (by decide))
    rw [← ih, ← ofDecimal_mul_ten f negative hpos, Nat.pow_succ, Nat.mul_assoc]
    congr 1
    omega

theorem ten_zpow_le_of_lt_length (hd : 0 < digits) (exponent : Int) :
    (10 : ℚ) ^ ((toString digits).length + exponent - 1) ≤ digits * 10 ^ exponent ∧
      (digits : ℚ) * 10 ^ exponent < 10 ^ ((toString digits).length + exponent) := by
  have hpos : (0 : ℚ) < 10 ^ exponent := by positivity
  have hlength : 0 < (Nat.toDigits 10 digits).length := Nat.length_toDigits_pos
  have hlow : (10 : ℚ) ^ ((Nat.toDigits 10 digits).length - 1) ≤ digits := by
    exact_mod_cast ten_pow_length_le hd
  have hhigh : (digits : ℚ) < 10 ^ (Nat.toDigits 10 digits).length := by
    exact_mod_cast lt_ten_pow_length digits
  have hsplit : ((Nat.toDigits 10 digits).length + exponent - 1 : Int) =
      ((Nat.toDigits 10 digits).length - 1 : Nat) + exponent := by omega
  rw [length_toString, hsplit, zpow_add₀ (by norm_num), zpow_add₀ (by norm_num), zpow_natCast,
    zpow_natCast]
  exact ⟨mul_le_mul_of_nonneg_right hlow hpos.le, mul_lt_mul_of_pos_right hhigh hpos⟩

theorem ten_zpow_le_two_zpow {x : Int} (hx : x ≤ 0) : (10 : ℚ) ^ x ≤ 2 ^ x := by
  obtain ⟨k, rfl⟩ := Int.exists_eq_neg_ofNat hx
  rw [zpow_neg, zpow_neg, zpow_natCast, zpow_natCast]
  exact inv_anti₀ (by positivity) (pow_le_pow_left₀ (by norm_num) (by norm_num) k)

theorem two_zpow_le_ten_zpow {x : Int} (hx : 0 ≤ x) : (2 : ℚ) ^ x ≤ 10 ^ x := by
  obtain ⟨k, rfl⟩ := Int.eq_ofNat_of_zero_le hx
  rw [zpow_natCast, zpow_natCast]
  exact pow_le_pow_left₀ (by norm_num) (by norm_num) k

/-- A decimal of the value of a number is read as that number. -/
theorem ofDecimal_of_holds (h : double.Holds m e) (hm : 0 < m) (hd : 0 < digits)
    (hv : (digits : ℚ) * 10 ^ exponent = m * 2 ^ e) :
    ofDecimal double negative digits exponent = .finite negative m e := by
  have hnearest : nearest double negative (digits * Nat.pow 10 exponent.toNat)
      (Nat.pow 10 (-exponent).toNat) = .finite negative m e := by
    refine nearest_of_holds h (by decide) hm ?_ (ten_pow_pos _) ?_
    · exact Nat.mul_pos hd (ten_pow_pos _)
    · rw [div_ten_pow, hv]
  obtain ⟨hlow, hhigh⟩ := ten_zpow_le_of_lt_length hd exponent
  rw [hv] at hlow hhigh
  -- no number of the format is so small or so large that its size decides
  have hleast : ¬ ((toString digits).length + exponent : Int) < -1074 := by
    intro htop
    have hm' : (1 : ℚ) ≤ m := by exact_mod_cast hm
    have hlt : (2 : ℚ) ^ e < 2 ^ ((toString digits).length + exponent : Int) :=
      calc (2 : ℚ) ^ e ≤ m * 2 ^ e := le_mul_of_one_le_left (by positivity) hm'
        _ < 10 ^ ((toString digits).length + exponent : Int) := hhigh
        _ ≤ 2 ^ ((toString digits).length + exponent : Int) := ten_zpow_le_two_zpow (by omega)
    have hle : (2 : ℚ) ^ ((toString digits).length + exponent : Int) ≤ 2 ^ e :=
      two_zpow_mono (htop.le.trans h.least)
    exact absurd hlt (not_lt.mpr hle)
  have hmost : ¬ (971 + 53 : Int) < (toString digits).length + exponent - 1 := by
    intro htop
    have hlt : (2 : ℚ) ^ ((toString digits).length + exponent - 1 : Int) < 2 ^ (53 + e) :=
      calc (2 : ℚ) ^ ((toString digits).length + exponent - 1 : Int)
          ≤ 10 ^ ((toString digits).length + exponent - 1 : Int) := two_zpow_le_ten_zpow (by omega)
        _ ≤ m * 2 ^ e := hlow
        _ < 2 ^ (53 + e) := (h.fits (by decide)).lt
    have hle : (2 : ℚ) ^ (53 + e) ≤ 2 ^ ((toString digits).length + exponent - 1 : Int) := by
      have he : e ≤ 971 := h.most
      exact two_zpow_mono (by omega)
    exact absurd hlt (not_lt.mpr hle)
  rw [ofDecimal, if_neg (by rintro (hz | hz); exacts [hd.ne' hz, hleast hz])]
  exact (if_neg hmost).trans hnearest

end Binary

/-! ## The shortest decimal -/

namespace Decimal

open Format

variable {m : Nat} {e : Int} {d : Decimal}

theorem readsBackAs_iff : d.readsBackAs m e = true ↔
    Binary.ofDecimal double false d.digits d.exponent = .finite false m e := by
  rw [readsBackAs, decide_eq_true_iff]

/-- No digits read back as zero only. -/
theorem digits_pos_of_readsBack (h : d.readsBackAs m e = true) (hm : 0 < m) : 0 < d.digits := by
  rw [readsBackAs_iff] at h
  rcases Nat.eq_zero_or_pos d.digits with hd | hd
  · rw [hd, Binary.ofDecimal, if_pos (.inl rfl)] at h
    cases h
    exact absurd hm (Nat.lt_irrefl 0)
  · exact hd

theorem exact_value (m : Nat) (e : Int) :
    ((exact m e).digits : ℚ) * 10 ^ (exact m e).exponent = m * 2 ^ e := by
  have hpow (k : Nat) : Nat.pow 5 k = 5 ^ k := rfl
  rw [exact, hpow, Nat.shiftLeft_eq]
  obtain ⟨k, rfl | rfl⟩ := e.eq_nat_or_neg
  · simp
  · have hten : (10 : ℚ) ^ k = 5 ^ k * 2 ^ k := by rw [← mul_pow]; norm_num
    simp [hten]
    field_simp

theorem exact_digits_pos (hm : 0 < m) (e : Int) : 0 < (exact m e).digits := by
  have hpow (k : Nat) : Nat.pow 5 k = 5 ^ k := rfl
  rw [exact, hpow, Nat.shiftLeft_eq]
  positivity

theorem exact_readsBack (h : double.Holds m e) (hm : 0 < m) :
    (exact m e).readsBackAs m e = true :=
  readsBackAs_iff.mpr (Binary.ofDecimal_of_holds h hm (exact_digits_pos hm e) (exact_value m e))

theorem cut?_readsBack {tie : Tie} {full : Decimal} {drop : Nat}
    (h : cut? tie m e full drop = some d) : d.readsBackAs m e = true := by
  simp only [cut?, choose] at h
  split at h
  · cases h
  · rename_i hlow _
    cases h
    exact hlow
  · rename_i _ hhigh
    cases h
    exact hhigh
  · rename_i hlow hhigh
    split at h
    · cases h; exact hlow
    · cases h; exact hhigh
    · split at h
      · cases h; exact hlow
      · cases h; exact hhigh

/-- Moving the last zeros to the exponent changes nothing in what is read. -/
theorem trim_readsBack (fuel : Nat) (d : Decimal) :
    (trim fuel d).readsBackAs m e = d.readsBackAs m e := by
  induction fuel generalizing d with
  | zero => rfl
  | succ fuel ih =>
    rw [trim]
    split
    · rename_i h
      have hd : 0 < d.digits / 10 := by omega
      have hten : d.digits / 10 * 10 = d.digits := by omega
      have hexponent : d.exponent + 1 - 1 = d.exponent := by omega
      have hmove := Binary.ofDecimal_mul_ten double false hd (d.exponent + 1)
      rw [hten, hexponent] at hmove
      rw [ih, readsBackAs, readsBackAs, hmove]
    · rfl

/-- The shortest decimal of a number is read as that number. -/
theorem shortest_readsBack (tie : Tie) (h : double.Holds m e) (hm : 0 < m) :
    (shortest tie m e).readsBackAs m e = true := by
  simp only [shortest]
  rw [trim_readsBack]
  generalize hfound : List.findSome? _ _ = found
  cases found with
  | none => exact exact_readsBack h hm
  | some d =>
    obtain ⟨n, -, hn⟩ := List.exists_of_findSome?_eq_some hfound
    exact cut?_readsBack hn

end Decimal

end Reattempt.Number
