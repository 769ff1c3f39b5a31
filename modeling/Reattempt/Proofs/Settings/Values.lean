import Reattempt.Proofs.Settings.RoundTrip

/-!
# Which values are settings

What values are acceptable for a field is said here without the reader, and the
reader takes exactly those, in whatever way it rounds numerals to floating-point
numbers. A duration of a whole number of milliseconds is exact, one of a
floating-point number is the product with a million, rounded to whole
nanoseconds; neither is cut to fit, and a number that does not fit is not
acceptable. A jitter is named by a string or by the one key of an object.
-/

namespace Reattempt.Settings

open Backoff Json Number

/-! ## Acceptable values -/

/-- A numeral that is handed over as an integer of 64 bits, signed if it is negative. -/
def IsInteger (n : Numeral) : Prop :=
  n.whole = true ∧ (n.negative = false ∧ n.digits < 2 ^ 64 ∨
    n.negative = true ∧ 0 < n.digits ∧ n.digits ≤ 2 ^ 63)

/-- The duration of so many milliseconds. -/
inductive MillisIs (round : Rounding) : Node → Duration → Prop where
  | integer {n : Numeral} {d : Duration} (hinteger : IsInteger n) (hsign : n.negative = false)
    (hd : d.toNanos = n.digits * 10 ^ 6) : MillisIs round (.number n) d
  | floating {n : Numeral} {product : Binary} {d : Duration} (hinteger : ¬ IsInteger n)
    (hfinite : (round n).isFinite = true) (hsign : (round n).isNegative = false)
    (hproduct : (round n).mul double Duration.million = product)
    (hfits : product.isFinite = true ∧ product.roundedMagnitude < 2 ^ 64)
    (hd : d.toNanos = product.roundedMagnitude) : MillisIs round (.number n) d

/-- The jitter that a value names. -/
inductive JitterIs : Node → Jitter → Prop where
  | string (j : Jitter) : JitterIs (.string (some j.label)) j
  | object (j : Jitter) : JitterIs (.object (.member (some j.label) .null .closed)) j

variable {round : Rounding} {v : Node} {d : Duration} {j : Jitter} {n : Numeral}

/-! ## Durations -/

/-- A value of another type is refused, if it is not malformed. -/
theorem mismatch_ne_ok {α : Type} (expected : String) (n : Node) (a : α) :
    n.mismatch round expected ≠ .ok a := by
  rw [Node.mismatch]
  cases n.found round <;> nofun

theorem millis_natural {k : Nat} (hk : k < 2 ^ 64) :
    Duration.ofMillisValue (.natural k.toUInt64) = .ok d ↔ d.toNanos = k * 10 ^ 6 := by
  have hword : k.toUInt64.toNat = k := UInt64.toNat_ofNat_of_lt' hk
  have hnanos : (Duration.ofMillis k.toUInt64).toNanos = k * 10 ^ 6 := by
    rw [Duration.toNanos_ofMillis, hword]
    rfl
  rw [Duration.ofMillisValue, Except.ok.injEq]
  constructor
  · rintro rfl
    exact hnanos
  · intro hd
    exact Duration.toNanos_inj (hnanos.trans hd.symm)

theorem millis_signed {k : Nat} (hpos : 0 < k) (hk : k ≤ 2 ^ 63) :
    Duration.ofMillisValue (.signed (Int64.ofInt (-k))) ≠ .ok d := by
  have hnegative : Int64.ofInt (-k) < 0 := by
    rw [Int64.lt_iff_toInt_lt, Int64.toInt_ofInt_of_le (by omega) (by omega)]
    simpa using hpos
  rw [Duration.ofMillisValue, if_pos hnegative]
  intro h
  cases h

theorem nanosOfMillis?_eq_some {x : Binary} {n : Nat} :
    Duration.nanosOfMillis? x = some n ↔ ((x.mul double Duration.million).isFinite = true ∧
      (x.mul double Duration.million).roundedMagnitude < 2 ^ 64) ∧
      (x.mul double Duration.million).roundedMagnitude = n := by
  simp [Duration.nanosOfMillis?, UInt64.size, and_assoc]

theorem millis_floating {x : Binary} (hfinite : x.isFinite = true) :
    Duration.ofMillisValue (.floating x) = .ok d ↔ x.isNegative = false ∧
      ((x.mul double Duration.million).isFinite = true ∧
        (x.mul double Duration.million).roundedMagnitude < 2 ^ 64) ∧
      d.toNanos = (x.mul double Duration.million).roundedMagnitude := by
  cases hsign : x.isNegative with
  | true => simp [Duration.ofMillisValue, hsign]
  | false =>
    rw [Duration.ofMillisValue_floating hfinite hsign]
    cases hnanos : Duration.nanosOfMillis? x with
    | none =>
      have hfits := fun h => (nanosOfMillis?_eq_some.mpr ⟨h, rfl⟩).symm.trans hnanos
      simp only [Option.elim_none, reduceCtorEq, true_and, false_iff, not_and]
      intro h
      cases hfits h
    | some n =>
      obtain ⟨hfits, rfl⟩ := nanosOfMillis?_eq_some.mp hnanos
      rw [Option.elim_some, Except.ok.injEq]
      constructor
      · rintro rfl
        exact ⟨rfl, hfits, Duration.toNanos_ofNanos_of_lt hfits.2⟩
      · rintro ⟨-, -, hd⟩
        rw [← hd, Duration.ofNanos_toNanos]

theorem value?_of_positive (round : Rounding) (h : IsInteger n) (hsign : n.negative = false) :
    n.value? round = some (.natural n.digits.toUInt64) ∧ n.digits < 2 ^ 64 := by
  obtain ⟨hwhole, hfits⟩ := h
  have hlt : n.digits < 2 ^ 64 := by simpa [hsign] using hfits
  exact ⟨if_pos ⟨hwhole, by simp [hsign], hlt⟩, hlt⟩

theorem value?_of_negative (round : Rounding) (h : IsInteger n) (hsign : n.negative = true) :
    n.value? round = some (.signed (Int64.ofInt (-n.digits))) ∧
      0 < n.digits ∧ n.digits ≤ 2 ^ 63 := by
  obtain ⟨hwhole, hfits⟩ := h
  have hrange : 0 < n.digits ∧ n.digits ≤ 2 ^ 63 := by simpa [hsign] using hfits
  refine ⟨?_, hrange⟩
  rw [Numeral.value?, if_neg (by simp [hsign]), if_pos ⟨hwhole, hsign, hrange⟩]

theorem value?_of_not_isInteger (h : ¬ IsInteger n) : n.value? round =
    if (round n).isFinite then some (.floating (round n)) else none := by
  rw [Numeral.value?, if_neg, if_neg]
  · rintro ⟨hwhole, hsign, hrange⟩
    exact h ⟨hwhole, .inr ⟨hsign, hrange⟩⟩
  · rintro ⟨hwhole, hsign, hlt⟩
    exact h ⟨hwhole, .inl ⟨by simpa using hsign, hlt⟩⟩

theorem readMillis_number_eq_ok : readMillis round (.number n) = .ok d ↔
    ∃ v, n.value? round = some v ∧ Duration.ofMillisValue v = .ok d := by
  rw [readMillis]
  cases n.value? round with
  | none => simp
  | some v => cases hv : Duration.ofMillisValue v <;> simp [hv, Except.mapError]

theorem millisIs_number : MillisIs round (.number n) d ↔
    ∃ v, n.value? round = some v ∧ Duration.ofMillisValue v = .ok d := by
  by_cases hinteger : IsInteger n
  · cases hsign : n.negative with
    | false =>
      obtain ⟨hvalue, hlt⟩ := value?_of_positive round hinteger hsign
      simp only [hvalue, Option.some.injEq, exists_eq_left', millis_natural hlt]
      constructor
      · rintro (⟨-, -, hd⟩ | ⟨hnot, -⟩)
        · exact hd
        · exact absurd hinteger hnot
      · exact .integer hinteger hsign
    | true =>
      obtain ⟨hvalue, hrange⟩ := value?_of_negative round hinteger hsign
      simp only [hvalue, Option.some.injEq, exists_eq_left', millis_signed hrange.1 hrange.2,
        iff_false]
      rintro (⟨-, hpositive, -⟩ | ⟨hnot, -⟩)
      · exact absurd (hsign.symm.trans hpositive) nofun
      · exact hnot hinteger
  · rw [value?_of_not_isInteger hinteger]
    cases hfinite : (round n).isFinite with
    | false =>
      simp only [Bool.false_eq_true, ↓reduceIte, reduceCtorEq, false_and, exists_false, iff_false]
      rintro (⟨h, -⟩ | ⟨-, hfinite', -⟩)
      · exact hinteger h
      · exact absurd (hfinite.symm.trans hfinite') nofun
    | true =>
      simp only [↓reduceIte, Option.some.injEq, exists_eq_left', millis_floating hfinite]
      constructor
      · rintro (⟨h, -⟩ | ⟨-, -, hsign, rfl, hfits, hd⟩)
        · exact absurd h hinteger
        · exact ⟨hsign, hfits, hd⟩
      · rintro ⟨hsign, hfits, hd⟩
        exact .floating hinteger hfinite hsign rfl hfits hd

theorem readMillis_eq_ok : readMillis round v = .ok d ↔ MillisIs round v d := by
  cases v with
  | number n => rw [millisIs_number, readMillis_number_eq_ok]
  | _ => exact iff_of_false (mismatch_ne_ok _ _ _) nofun

/-! ## Jitters -/

theorem choose_eq_ok {s : String} :
    Node.variant.choose jitterNames Jitter.ofLabel? s = .ok j ↔ s = j.label := by
  rw [Node.variant.choose]
  constructor
  · intro h
    cases hname : Jitter.ofLabel? s with
    | none => rw [hname] at h; cases h
    | some j' =>
      rw [hname] at h
      cases h
      rw [Jitter.ofLabel?] at hname
      have hlabel := List.find?_some hname
      exact (beq_iff_eq.mp hlabel).symm
  · rintro rfl
    rw [ofLabel?_label]
    rfl

theorem readJitter_object {s : String} {value : Node} {rest : Members} :
    readJitter round (.object (.member (some s) value rest)) = .ok j ↔
      s = j.label ∧ value = .null ∧ rest = .closed := by
  rw [readJitter, Node.variant, ← choose_eq_ok]
  cases Node.variant.choose jitterNames Jitter.ofLabel? s with
  | error _ => simp [bind, Except.bind]
  | ok j' =>
    cases value with
    | null => cases rest <;> simp [bind, Except.bind]
    | _ => simp [bind, Except.bind, mismatch_ne_ok]

theorem readJitter_eq_ok : readJitter round v = .ok j ↔ JitterIs v j := by
  constructor
  · intro h
    cases v with
    | string s =>
      cases s with
      | none => cases h
      | some s => exact choose_eq_ok.mp h ▸ .string j
    | object members =>
      rcases members with _ | _ | ⟨_ | s, value, rest⟩
      · cases h
      · cases h
      · cases h
      · obtain ⟨rfl, rfl, rfl⟩ := readJitter_object.mp h
        exact .object j
    | _ => cases h
  · rintro (_ | _)
    · exact readJitter_label j
    · exact readJitter_object.mpr ⟨rfl, rfl, rfl⟩

end Reattempt.Settings
