import Mathlib.Tactic.ByContra
import Reattempt.Proofs.Json.Grammar

/-!
# Lexemes of documents

A number that follows the grammar is cut off as one lexeme wherever it stands:
nothing that may follow it in a document goes on with it. Its numeral is the one
that the grammar gives it. A string is cut off at its closing quote, and its
pieces are those of the grammar.
-/

namespace Reattempt.Json

open Text

/-- What may stand behind a number. -/
def Ends (rest : List Char) : Prop :=
  ∀ c ∈ rest.head?, c.isDigit = false ∧ c ≠ '.' ∧ c ≠ 'e' ∧ c ≠ 'E'

namespace Ends

variable {rest : List Char}

theorem digit (h : Ends rest) : ∀ c ∈ rest.head?, c.isDigit = false := fun c hc => (h c hc).1

theorem point (h : Ends rest) : ∀ c ∈ rest.head?, c ≠ '.' := fun c hc => (h c hc).2.1

theorem mark (h : Ends rest) : ∀ c ∈ rest.head?, c ≠ 'e' ∧ c ≠ 'E' := fun c hc => (h c hc).2.2

end Ends

section Heads

variable {cs fs rest : List Char} {e : Option Int}

theorem ExponentText.head (h : ExponentText cs e) (hrest : Ends rest) :
    ∀ c ∈ (cs ++ rest).head?, c.isDigit = false ∧ c ≠ '.' := by
  cases h with
  | missing => exact fun c hc => ⟨hrest.digit c hc, hrest.point c hc⟩
  | digits hmark => rcases hmark with rfl | rfl <;> simp

theorem FractionText.head (h : FractionText cs fs)
    (hrest : ∀ c ∈ rest.head?, c.isDigit = false ∧ c ≠ '.') :
    ∀ c ∈ (cs ++ rest).head?, c.isDigit = false := by
  cases h with
  | missing => exact fun c hc => (hrest c hc).1
  | digits => simp

end Heads

namespace Token

/-! ## Numbers -/

section Numbers

variable {ds fs cs rest : List Char} {e : Option Int}

theorem digitRun_append (hds : ∀ c ∈ ds, c.isDigit = true)
    (hrest : ∀ c ∈ rest.head?, c.isDigit = false) : digitRun (ds ++ rest) = (ds, rest) := by
  induction ds with
  | nil =>
    cases rest with
    | nil => rfl
    | cons c rest => simp [digitRun, hrest c rfl]
  | cons c ds ih =>
    have hc := hds c List.mem_cons_self
    have hrun := Prod.mk.inj (ih fun x hx => hds x (List.mem_cons_of_mem c hx))
    simp [digitRun, hc, hrun]

theorem wholePart?_append (hds : Whole ds) (hrest : ∀ c ∈ rest.head?, c.isDigit = false) :
    wholePart? (ds ++ rest) = some (ds, rest) := by
  rw [wholePart?, digitRun_append hds.digits hrest]
  split
  · rename_i h
    exact absurd (Prod.mk.inj h).1 hds.ne_nil
  · rename_i h
    exact absurd (hds.alone _ (Prod.mk.inj h).1) nofun
  · rfl

theorem fraction?_append (hfs : ∀ c ∈ fs, c.isDigit = true) (hne : fs ≠ [])
    (hrest : ∀ c ∈ rest.head?, c.isDigit = false) :
    fraction? ('.' :: (fs ++ rest)) = some (fs, rest) := by
  rw [fraction?, digitRun_append hfs hrest]
  split
  · rename_i h
    exact absurd (Prod.mk.inj h).1 hne
  · rfl

theorem fraction?_of_ends (hrest : ∀ c ∈ rest.head?, c ≠ '.') :
    fraction? rest = some ([], rest) := by
  cases rest with
  | nil => rfl
  | cons c rest =>
    rw [fraction?]
    rintro cs h
    exact hrest c rfl (List.cons.inj h).1

theorem exponent?_of_ends (hrest : ∀ c ∈ rest.head?, c ≠ 'e' ∧ c ≠ 'E') :
    exponent? rest = some (none, rest) := by
  cases rest with
  | nil => rfl
  | cons c rest =>
    obtain ⟨he, hE⟩ := hrest c rfl
    simp [exponent?, he, hE]

theorem fraction?_text (h : FractionText cs fs)
    (hrest : ∀ c ∈ rest.head?, c.isDigit = false ∧ c ≠ '.') :
    fraction? (cs ++ rest) = some (fs, rest) := by
  cases h with
  | missing => exact fraction?_of_ends fun c hc => (hrest c hc).2
  | digits hds hne => exact fraction?_append hds hne fun c hc => (hrest c hc).1

theorem exponent?_text (h : ExponentText cs e) (hrest : Ends rest) :
    exponent? (cs ++ rest) = some (e, rest) := by
  cases h with
  | missing => exact exponent?_of_ends hrest.mark
  | @digits mark _ ds _ hmark hsign hds hne =>
    have hrun := digitRun_append hds hrest.digit
    obtain ⟨c, ds, rfl⟩ := List.exists_cons_of_ne_nil hne
    rw [List.cons_append] at hrun
    cases hsign with
    | missing =>
      have hc := hds c List.mem_cons_self
      have hminus : c ≠ '-' := by rintro rfl; exact absurd hc nofun
      have hplus : c ≠ '+' := by rintro rfl; exact absurd hc nofun
      simp [exponent?, hmark, hminus, hplus, hrun]
    | plus => simp [exponent?, hmark, hrun]
    | minus => simp [exponent?, hmark, hrun]

theorem unsigned?_text {ws exponent : List Char} (negative : Bool) (hws : Whole ws)
    (hfraction : FractionText cs fs) (hexponent : ExponentText exponent e) (hrest : Ends rest) :
    unsigned? negative (ws ++ (cs ++ exponent) ++ rest) = some (.number
      ⟨negative, Digits.toNat (ws ++ fs), fs.length, e.getD 0, fs.isEmpty && e.isNone⟩, rest) := by
  have hbehind := hexponent.head hrest
  have hwhole' := wholePart?_append hws (hfraction.head hbehind)
  have hfraction' := fraction?_text hfraction hbehind
  have hexponent' := exponent?_text hexponent hrest
  simp [unsigned?, hwhole', hfraction', hexponent']

end Numbers

/-! ## Strings -/

section Strings

variable {c : Char} {cs : List Char}

theorem pieces?_letter {l : Char} (hl : letter? l = some c) (hu : l ≠ 'u') (cs : List Char) :
    pieces? ('\\' :: l :: cs) = (pieces? cs).map fun (ps, rest) => (.char c :: ps, rest) := by
  rw [pieces?]
  · cases pieces? cs <;> simp [hl]
  · exact fun _ _ _ _ _ h _ => hu h

theorem pieces?_char (hc : ¬ c.toNat < 32) (hquote : c ≠ '"') (hslash : c ≠ '\\') (cs : List Char) :
    pieces? (c :: cs) = (pieces? cs).map fun (ps, rest) => (.char c :: ps, rest) := by
  rw [pieces?]
  · cases pieces? cs <;> simp [hc, hslash]
  · exact hquote
  · exact fun _ _ _ _ _ h _ => hslash h
  · exact fun _ _ h _ => hslash h

theorem pieces?_text {ps : List Piece} (h : PiecesText cs ps) (rest : List Char) :
    pieces? (cs ++ '"' :: rest) = some (ps, rest) := by
  induction h with
  | nil => rfl
  | char hc hquote hslash _ ih => rw [List.cons_append, pieces?_char hc hquote hslash, ih]; rfl
  | @letter l _ _ _ hl _ ih =>
    have hu : l ≠ 'u' := by rintro rfl; exact absurd hl nofun
    rw [List.cons_append, List.cons_append, pieces?_letter hl hu, ih]
    rfl
  | unit ha hb hc hd _ ih => simp [pieces?, ha, hb, hc, hd, ih]

end Strings

/-! ## Lexemes -/

section Lexemes

variable {c : Char} {cs text : List Char} {t : Token}

/-- A text that is cut off as one lexeme, unless what follows it goes on with a number. -/
def IsLexeme (text : List Char) (t : Token) : Prop :=
  ∃ c cs, text = c :: cs ∧ isBlank c = false ∧
    ∀ rest, Ends rest → lexeme? c (cs ++ rest) = some (t, rest)

theorem isDigit_of_unsigned? {negative : Bool} {r : Token × List Char}
    (h : unsigned? negative (c :: cs) = some r) : c.isDigit = true := by
  by_contra hc
  have hrun : digitRun (c :: cs) = ([], c :: cs) := by simp [digitRun, hc]
  simp [unsigned?, wholePart?, hrun] at h

theorem lexeme?_of_isDigit (hc : c.isDigit = true) (cs : List Char) :
    isBlank c = false ∧ lexeme? c cs = unsigned? false (c :: cs) := by
  have hother (x : Char) (hx : x.isDigit = false) : c ≠ x := by
    rintro rfl
    exact absurd (hc.symm.trans hx) nofun
  constructor
  · simp [isBlank, hother]
  · unfold lexeme?
    split <;> first | rfl | exact absurd hc nofun

theorem isLexeme_of_unsigned?
    (h : ∀ rest, Ends rest → unsigned? false (text ++ rest) = some (t, rest)) :
    IsLexeme text t := by
  have hend : unsigned? false (text ++ []) = some (t, []) := h [] nofun
  cases text with
  | nil => exact absurd hend nofun
  | cons c cs =>
    have hc := isDigit_of_unsigned? hend
    refine ⟨c, cs, rfl, (lexeme?_of_isDigit hc cs).1, fun rest hrest => ?_⟩
    exact (lexeme?_of_isDigit hc _).2.trans (h rest hrest)

theorem isLexeme_number {n : Numeral} (h : NumberText text n) :
    IsLexeme text (.number n) := by
  obtain ⟨negative, hws, hfraction, hexponent⟩ := h
  have hunsigned := fun rest (hrest : Ends rest) =>
    unsigned?_text negative hws hfraction hexponent hrest
  cases negative with
  | false => exact isLexeme_of_unsigned? hunsigned
  | true => exact ⟨'-', _, rfl, rfl, hunsigned⟩

theorem isLexeme_string {s : Option String} (h : StringText text s) :
    IsLexeme text (.string s) := by
  obtain ⟨h⟩ := h
  refine ⟨'"', _, rfl, rfl, fun rest _ => ?_⟩
  simp [lexeme?, pieces?_text h rest]

end Lexemes

end Token

end Reattempt.Json
