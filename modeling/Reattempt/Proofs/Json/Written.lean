import Reattempt.Json.Read
import Reattempt.Number.Layout
import Reattempt.Proofs.Json.Grammar
import Reattempt.Proofs.Number.Shortest

/-!
# What is written is a document

Written numbers, strings, arrays and objects follow the grammar. The numeral of
a number that was written has the digits and the exponent of its decimal, up to
zeros, so it is the number that was written. A string names the characters that
were written.
-/

namespace Reattempt

open Number Text

/-! ## Digits -/

namespace Text.Digits

theorem toNat_toDigits (n : Nat) : toNat (Nat.toDigits 10 n) = n := Nat.ofDigitChars_ten_toDigits

theorem toNat_append_replicate (ds : List Char) (n : Nat) :
    toNat (ds ++ List.replicate n '0') = toNat ds * 10 ^ n :=
  calc toNat (ds ++ List.replicate n '0')
      = Nat.ofDigitChars 10 (List.replicate n '0') (toNat ds) := Nat.ofDigitChars_append 0
    _ = 10 ^ n * toNat ds := Nat.ofDigitChars_replicate_zero
    _ = toNat ds * 10 ^ n := Nat.mul_comm _ _

theorem toNat_replicate_append (n : Nat) (ds : List Char) :
    toNat (List.replicate n '0' ++ ds) = toNat ds := by
  have hzeros : Nat.ofDigitChars 10 (List.replicate n '0') 0 = 0 := by
    rw [Nat.ofDigitChars_replicate_zero, Nat.mul_zero]
  exact (Nat.ofDigitChars_append 0).trans (by rw [hzeros]; rfl)

/-- Only zero is written with a zero in front. -/
theorem head_toDigits {n : Nat} (hn : 0 < n) (cs : List Char) : Nat.toDigits 10 n ≠ '0' :: cs := by
  induction n using Nat.strongRecOn generalizing cs with
  | _ n ih =>
    rcases Nat.lt_or_ge n 10 with hlt | hge
    · rw [Nat.toDigits_of_lt_base hlt]
      intro h
      exact hn.ne' (Nat.digitChar_eq_zero.mp (List.cons.inj h).1)
    · rw [Nat.toDigits_of_base_le (by decide) hge]
      obtain ⟨c, ds, hds⟩ := List.exists_cons_of_ne_nil (Nat.toDigits_ne_nil (n := n / 10) (b := 10))
      intro h
      rw [hds] at h
      refine ih (n / 10) (by omega) (by omega) ds ?_
      rw [hds, (List.cons.inj h).1]

end Text.Digits

namespace Json

namespace Token

section Numbers

variable {ds fs cs : List Char}

/-! ## The parts of a number -/

theorem digits_toDigits (n : Nat) : ∀ c ∈ Nat.toDigits 10 n, c.isDigit = true :=
  fun _ => Nat.isDigit_of_mem_toDigits (by decide) (Nat.le_refl 10)

theorem Whole.zero : Whole ['0'] where
  digits := List.forall_mem_singleton.mpr rfl
  ne_nil := nofun
  alone _ h := (List.cons.inj h).2.symm

theorem Whole.toDigits (n : Nat) : Whole (Nat.toDigits 10 n) := by
  rcases Nat.eq_zero_or_pos n with rfl | hn
  · exact .zero
  · exact ⟨digits_toDigits n, Nat.toDigits_ne_nil, fun cs h => absurd h (Digits.head_toDigits hn cs)⟩

theorem Whole.cons {c : Char} (hc : c.isDigit = true) (hzero : c ≠ '0')
    (hcs : ∀ x ∈ cs, x.isDigit = true) : Whole (c :: cs) where
  digits := List.forall_mem_cons.mpr ⟨hc, hcs⟩
  ne_nil := nofun
  alone _ h := absurd (List.cons.inj h).1 hzero

theorem digits_replicate (n : Nat) : ∀ c ∈ List.replicate n '0', c.isDigit = true := by
  intro c hc
  rw [List.eq_of_mem_replicate hc]
  rfl

theorem digits_append (hds : ∀ c ∈ ds, c.isDigit = true) (hfs : ∀ c ∈ fs, c.isDigit = true) :
    ∀ c ∈ ds ++ fs, c.isDigit = true :=
  fun c hc => (List.mem_append.mp hc).elim (hds c) (hfs c)

/-- The exponent as it is written, with its sign. -/
theorem exponentText_written (e : Int) :
    ExponentText ('e' :: (if e < 0 then '-' else '+') :: Digits.ofNat e.natAbs) (some e) := by
  have hdigits := digits_toDigits e.natAbs
  have hvalue := Digits.toNat_toDigits e.natAbs
  have hne : Nat.toDigits 10 e.natAbs ≠ [] := Nat.toDigits_ne_nil
  rw [ofNat_eq_toDigits]
  by_cases he : e < 0
  · have hexponent := ExponentText.digits (.inl rfl) .minus hdigits hne
    simpa [he, hvalue, abs_of_neg he] using hexponent
  · have hexponent := ExponentText.digits (.inl rfl) .plus hdigits hne
    simpa [he, hvalue, abs_of_nonneg (not_lt.mp he)] using hexponent

theorem numberText_whole (hds : Whole ds) :
    NumberText ds ⟨false, Digits.toNat ds, 0, 0, true⟩ := by
  simpa using NumberText.mk false hds .missing .missing

theorem numberText_fraction (hds : Whole ds) (hfs : ∀ c ∈ fs, c.isDigit = true) (hne : fs ≠ []) :
    NumberText (ds ++ '.' :: fs) ⟨false, Digits.toNat (ds ++ fs), fs.length, 0, false⟩ := by
  have hfs' : fs.isEmpty = false := List.isEmpty_eq_false_iff.mpr hne
  simpa [hfs'] using NumberText.mk false hds (.digits hfs hne) .missing

/-! ## Decimals -/

variable {d : Decimal} {c : Char}

/-- The numeral of a decimal, with `k` zeros more in its digits. -/
def numeral (d : Decimal) (k places : Nat) : Numeral :=
  ⟨false, d.digits * 10 ^ k, places, d.exponent - k + places, false⟩

/-- The digits of a decimal that is not zero. -/
structure Leads (d : Decimal) (c : Char) (cs : List Char) : Prop where
  eq : Digits.ofNat d.digits = c :: cs
  ne : c ≠ '0'
  first : c.isDigit = true
  others : ∀ x ∈ cs, x.isDigit = true
  value : Digits.toNat (c :: cs) = d.digits

theorem exists_leads (hd : 0 < d.digits) : ∃ c cs, Leads d c cs := by
  obtain ⟨c, cs, hcs⟩ := List.exists_cons_of_ne_nil (Nat.toDigits_ne_nil (n := d.digits) (b := 10))
  have hdigits := List.forall_mem_cons.mp (hcs ▸ digits_toDigits d.digits)
  exact ⟨c, cs, (ofNat_eq_toDigits _).trans hcs, fun h => Digits.head_toDigits hd cs (h ▸ hcs),
    hdigits.1, hdigits.2, hcs ▸ Digits.toNat_toDigits d.digits⟩

theorem numberText_inPlace (h : Leads d c cs) {point : Int}
    (hpoint : point = (c :: cs).length + d.exponent) :
    ∃ k places, NumberText (Layout.document.inPlace (c :: cs) point) (numeral d k places) := by
  have hdigits : ∀ x ∈ c :: cs, x.isDigit = true := List.forall_mem_cons.mpr ⟨h.first, h.others⟩
  rw [List.length_cons] at hpoint
  rw [Layout.inPlace]
  split
  · -- nothing before the point, and zeros behind it
    refine ⟨0, (List.replicate (-point).toNat '0' ++ c :: cs).length, ?_⟩
    have hfs := digits_append (digits_replicate (-point).toNat) hdigits
    have hnumber := numberText_fraction .zero hfs (by simp)
    have hvalue : Digits.toNat (['0'] ++ (List.replicate (-point).toNat '0' ++ (c :: cs))) =
        d.digits := by
      have hzeros := Digits.toNat_replicate_append ((-point).toNat + 1) (c :: cs)
      rw [List.replicate_succ] at hzeros
      exact hzeros.trans h.value
    have hnumeral : numeral d 0 (List.replicate (-point).toNat '0' ++ c :: cs).length =
        ⟨false, d.digits, (List.replicate (-point).toNat '0' ++ c :: cs).length, 0, false⟩ := by
      simp [numeral]
      omega
    rw [hnumeral, ← hvalue]
    exact hnumber
  · rename_i hpositive
    rw [List.length_cons]
    split
    · -- zeros up to the point, and one behind it
      generalize hzeros : point.toNat - (cs.length + 1) = n
      refine ⟨n + 1, (List.replicate 1 '0').length, ?_⟩
      have hwhole := Whole.cons h.first h.ne (digits_append h.others (digits_replicate n))
      have hnumber := numberText_fraction hwhole (digits_replicate 1) nofun
      have hvalue : Digits.toNat (c :: (cs ++ List.replicate n '0') ++ List.replicate 1 '0') =
          d.digits * 10 ^ (n + 1) := by
        rw [← h.value, ← Digits.toNat_append_replicate]
        simp [List.replicate_succ']
      have hnumeral : numeral d (n + 1) (List.replicate 1 '0').length =
          ⟨false, d.digits * 10 ^ (n + 1), (List.replicate 1 '0').length, 0, false⟩ := by
        simp [numeral]
        omega
      rw [hnumeral, ← hvalue]
      exact hnumber
    · -- the point among the digits
      obtain ⟨p, hp⟩ : ∃ p, point.toNat = p + 1 := ⟨point.toNat - 1, by omega⟩
      refine ⟨0, (cs.drop p).length, ?_⟩
      have htake (x) (hx : x ∈ cs.take p) := h.others x (List.mem_of_mem_take hx)
      have hdrop (x) (hx : x ∈ cs.drop p) := h.others x (List.mem_of_mem_drop hx)
      have hne : cs.drop p ≠ [] := by
        rw [Ne, List.drop_eq_nil_iff]
        omega
      have hnumber := numberText_fraction (.cons h.first h.ne htake) hdrop hne
      have hnumeral : numeral d 0 (cs.drop p).length =
          ⟨false, d.digits, (cs.drop p).length, 0, false⟩ := by
        simp [numeral]
        omega
      rw [List.cons_append, List.cons_append, List.take_append_drop, h.value, ← hnumeral] at hnumber
      rw [hp]
      exact hnumber

theorem numberText_withExponent (h : Leads d c cs) {e : Int} (he : e = cs.length + d.exponent) :
    NumberText (Layout.withExponent (c :: cs) e) (numeral d 0 cs.length) := by
  have hwhole := Whole.cons h.first h.ne (List.forall_mem_nil _)
  have hexponent := exponentText_written e
  cases cs with
  | nil =>
    have hnumber := NumberText.mk false hwhole .missing hexponent
    have hnumeral : numeral d 0 0 = ⟨false, d.digits, 0, e, false⟩ := by
      simp [numeral, he]
    rw [List.length_nil, hnumeral, ← h.value]
    simpa [Layout.withExponent] using hnumber
  | cons x cs =>
    have hnumber := NumberText.mk false hwhole (.digits h.others nofun) hexponent
    have hnumeral : numeral d 0 (x :: cs).length =
        ⟨false, d.digits, (x :: cs).length, e, false⟩ := by
      simp [numeral, he, add_comm]
    rw [hnumeral, ← h.value]
    simpa [Layout.withExponent] using hnumber

/-- A decimal is written as its numeral. -/
theorem numberText_decimal (hd : 0 < d.digits) :
    ∃ k places, NumberText (Layout.document.decimal d) (numeral d k places) := by
  obtain ⟨c, cs, h⟩ := exists_leads hd
  simp only [Layout.decimal, Layout.document, h.eq]
  split
  · exact numberText_inPlace h rfl
  · exact ⟨0, _, numberText_withExponent h (by simp; omega)⟩

theorem numberText_natural (n : Nat) :
    NumberText (toString n).toList ⟨false, n, 0, 0, true⟩ := by
  have hnumber := numberText_whole (.toDigits n)
  rw [Digits.toNat_toDigits, ← ofNat_eq_toDigits] at hnumber
  exact hnumber

end Numbers

/-! ## Strings -/

section Strings

variable {c : Char}

/-- The piece that a character is written as. -/
def pieceOf (c : Char) : Piece :=
  if escapeLetter? c = none ∧ c.toNat < 32 then .unit c.toNat else .char c

theorem letter?_escapeLetter? {l : Char} (h : escapeLetter? c = some l) :
    letter? l = some c ∧ l ≠ 'u' := by
  unfold escapeLetter? at h
  split at h <;> cases h <;> exact ⟨rfl, by decide⟩

theorem hexValue?_digitChar {n : Nat} (hn : n < 16) : hexValue? (Nat.digitChar n) = some n := by
  have hall : ∀ i < 16, hexValue? (Nat.digitChar i) = some i := by decide
  exact hall n hn

theorem characters?_unit {n : Nat} (hn : n < 32) (ps : List Piece) :
    characters? (.unit n :: ps) = (characters? ps).map (Char.ofNat n :: ·) := by
  have hlead : isLead n = false := by simp [isLead]; omega
  have htrail : isTrail n = false := by simp [isTrail]; omega
  cases ps with
  | nil => simp [characters?, hlead, htrail]
  | cons p ps =>
    cases p with
    | char d => simp [characters?, hlead, htrail]
    | unit m => simp [characters?, hlead, htrail]

/-- No character is written as a surrogate. -/
theorem characters?_map_pieceOf (cs : List Char) : characters? (cs.map pieceOf) = some cs := by
  induction cs with
  | nil => rfl
  | cons c cs ih =>
    rw [List.map_cons, pieceOf]
    split
    · rename_i h
      rw [characters?_unit h.2, ih, Char.ofNat_toNat]
      rfl
    · rw [characters?, ih]
      rfl

end Strings

end Token

/-! ## The numbers of numerals -/

section Values

variable {d : Decimal} {m k places : Nat} {e : Int}

/-- Zeros more in the digits make no other number, wherever the point stands. -/
theorem nearest_numeral (hd : 0 < d.digits) (h : d.readsBackAs m e = true) :
    (Token.numeral d k places).nearest = .finite false m e := by
  rw [Decimal.readsBackAs_iff] at h
  have hexponent : d.exponent - k + places - places = d.exponent - k := by omega
  rw [Numeral.nearest, Token.numeral, hexponent]
  exact (Binary.ofDecimal_mul_pow double false hd d.exponent k).trans h

theorem value?_numeral (hd : 0 < d.digits) (h : d.readsBackAs m e = true) :
    (Token.numeral d k places).value? Numeral.nearest = some (.floating (.finite false m e)) := by
  have hnearest : (Token.numeral d k places).nearest = _ := nearest_numeral hd h
  rw [Numeral.value?, hnearest]
  simp [Token.numeral, Binary.isFinite]

/-- A number of the format is written as a numeral that is nearest to it. -/
theorem numberText_binary (h : double.Holds m e) (hm : 0 < m) : ∃ n : Numeral,
    NumberText (Layout.document.write (.finite false m e)).toList n ∧
      n.value? Numeral.nearest = some (.floating (.finite false m e)) := by
  have hreads := Decimal.shortest_readsBack Layout.document.tie h hm
  have hdigits := Decimal.digits_pos_of_readsBack hreads hm
  obtain ⟨k, places, hnumber⟩ := Token.numberText_decimal hdigits
  refine ⟨Token.numeral _ k places, ?_, value?_numeral hdigits hreads⟩
  have htext : (Layout.document.write (.finite false m e)).toList =
      Layout.document.decimal (Decimal.shortest Layout.document.tie m e) := by
    simp [Layout.write, hm.ne']
  rw [htext]
  exact hnumber

theorem value?_natural {n : Nat} (round : Rounding) (hn : n < UInt64.size) :
    (Numeral.mk false n 0 0 true).value? round = some (.natural n.toUInt64) := by
  simp [Numeral.value?, hn]

end Values

/-! ## Written values -/

open Token

theorem piecesText_escape (c : Char) {cs : List Char} {ps : List Piece} (h : PiecesText cs ps) :
    PiecesText (escape c ++ cs) (pieceOf c :: ps) := by
  rw [escape, pieceOf]
  cases hletter : escapeLetter? c with
  | some l => simpa using h.letter (letter?_escapeLetter? hletter).1
  | none =>
    by_cases hc : c.toNat < 32
    · have hunit := h.unit (a := '0') (b := '0') rfl rfl
        (hexValue?_digitChar (n := c.toNat / 16) (by omega))
        (hexValue?_digitChar (n := c.toNat % 16) (by omega))
      have hvalue : 16 * (c.toNat / 16) + c.toNat % 16 = c.toNat := Nat.div_add_mod _ 16
      simpa [hc, hvalue] using hunit
    · have hquote : c ≠ '"' := by rintro rfl; exact absurd hletter nofun
      have hslash : c ≠ '\\' := by rintro rfl; exact absurd hletter nofun
      simpa [hc] using h.char hc hquote hslash

theorem stringText_writeString (s : String) : StringText (writeString s) (some s) := by
  have hpieces : PiecesText (s.toList.flatMap escape) (s.toList.map pieceOf) := by
    induction s.toList with
    | nil => exact .nil
    | cons c cs ih => exact piecesText_escape c ih
  simpa [writeString, characters?_map_pieceOf] using StringText.mk hpieces

theorem valueText_writeArray {es : List Element} (h : ∀ e ∈ es, ValueText e.text e.value) :
    ValueText (writeArray (es.map Element.text)) (.array (.ofList (es.map Element.value))) := by
  cases es with
  | nil => exact .emptyArray blank_nil
  | cons e es => exact .array _ (List.cons_ne_nil e es) h

theorem keyText_writeString (key : String) : KeyText (writeString key) (some key) := by
  have hkey := KeyText.mk blank_nil (stringText_writeString key) blank_nil
  simpa using hkey

/-- A member as it is written. -/
def Field.written (f : String × Element) : Field :=
  ⟨writeString f.1, some f.1, f.2.text, f.2.value⟩

/-- An object is written as a document, each value under its key. -/
theorem valueText_writeObject {fields : List (String × Element)}
    (h : ∀ f ∈ fields, ValueText f.2.text f.2.value) :
    ValueText (writeObject (fields.map fun f => (f.1, f.2.text)))
      (.object (.ofFields (fields.map fun f => (f.1, f.2.value)))) := by
  cases fields with
  | nil => exact .emptyObject blank_nil
  | cons f fields =>
    have hkeys : ∀ m ∈ (f :: fields).map Field.written, KeyText m.keyText m.key :=
      List.forall_mem_map.mpr fun m _ => keyText_writeString m.1
    have hobject := ValueText.object _ (by simp) hkeys (List.forall_mem_map.mpr h)
    simpa [writeObject, Members.ofFields, Field.written, Function.comp_def] using hobject

end Json

end Reattempt
