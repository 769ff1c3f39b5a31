import Reattempt.Json.Read
import Reattempt.Proofs.Json.Lexemes

/-!
# How documents are read

Lexemes and nodes are put together in the same way as the text: what a part is
cut into and read as does not depend on what stands behind it. So each rule of
the grammar has its counterpart in reading, a document is read as the value that
the grammar gives it, and nothing is left over.
-/

namespace Reattempt.Json

open Token

variable {bs bs' cs text rest : List Char} {t : Token} {tokens ts us : List Token} {n : Node}

/-! ## Lexemes of a text -/

/-- The lexemes of a text, cut off with any fuel that is enough. -/
def Scans (cs : List Char) (ts : List Token) : Prop :=
  ∀ fuel, cs.length ≤ fuel → scan fuel cs = ts

theorem Scans.nil : Scans [] [] := fun fuel _ => by cases fuel <;> rfl

theorem Scans.cons {c : Char} {cs : List Char} (hblank : isBlank c = false)
    (hlexeme : lexeme? c cs = some (t, rest)) (hlength : rest.length ≤ cs.length)
    (h : Scans rest ts) : Scans (c :: cs) (t :: ts) := by
  intro fuel hfuel
  rw [List.length_cons] at hfuel
  obtain ⟨fuel, rfl⟩ : ∃ k, fuel = k + 1 := ⟨fuel - 1, by omega⟩
  simp [scan, hblank, hlexeme, h fuel (by omega)]

theorem Scans.lexeme (ht : IsLexeme text t) (hrest : Ends rest) (h : Scans rest ts) :
    Scans (text ++ rest) (t :: ts) := by
  obtain ⟨c, cs, rfl, hblank, hlexeme⟩ := ht
  exact .cons hblank (hlexeme rest hrest) (by simp) h

theorem Scans.arrayOpen (h : Scans rest ts) : Scans ('[' :: rest) (.arrayOpen :: ts) :=
  .cons rfl rfl (Nat.le_refl _) h

theorem Scans.arrayClose (h : Scans rest ts) : Scans (']' :: rest) (.arrayClose :: ts) :=
  .cons rfl rfl (Nat.le_refl _) h

theorem Scans.objectOpen (h : Scans rest ts) : Scans ('\x7b' :: rest) (.objectOpen :: ts) :=
  .cons rfl rfl (Nat.le_refl _) h

theorem Scans.objectClose (h : Scans rest ts) : Scans ('\x7d' :: rest) (.objectClose :: ts) :=
  .cons rfl rfl (Nat.le_refl _) h

theorem Scans.comma (h : Scans rest ts) : Scans (',' :: rest) (.comma :: ts) :=
  .cons rfl rfl (Nat.le_refl _) h

theorem Scans.colon (h : Scans rest ts) : Scans (':' :: rest) (.colon :: ts) :=
  .cons rfl rfl (Nat.le_refl _) h

theorem Scans.blank (hbs : Blank bs) (h : Scans rest ts) : Scans (bs ++ rest) ts := by
  induction bs with
  | nil => exact h
  | cons b bs ih =>
    have hb := hbs b List.mem_cons_self
    have hscans := ih fun c hc => hbs c (List.mem_cons_of_mem b hc)
    intro fuel hfuel
    rw [List.cons_append, List.length_cons] at hfuel
    obtain ⟨fuel, rfl⟩ : ∃ k, fuel = k + 1 := ⟨fuel - 1, by omega⟩
    rw [List.cons_append, scan, if_pos hb]
    exact hscans fuel (by omega)

theorem Blank.ends (hbs : Blank bs) (hrest : Ends rest) : Ends (bs ++ rest) := by
  cases bs with
  | nil => exact hrest
  | cons b bs =>
    have hb := hbs b List.mem_cons_self
    simp only [isBlank, Bool.or_eq_true, decide_eq_true_eq] at hb
    rcases hb with ((rfl | rfl) | rfl) | rfl <;> simp [Ends]

/-! ## Values -/

/-- A text is cut into these lexemes and read as this value, whatever stands behind it. -/
structure Spells (text : List Char) (tokens : List Token) (n : Node) : Prop where
  scans : ∀ {rest ts}, Ends rest → Scans rest ts → Scans (text ++ rest) (tokens ++ ts)
  reads : ∀ fuel ts, tokens.length ≤ fuel → readNode fuel (tokens ++ ts) = (n, ts)

/-- A lexeme that is a value by itself. -/
theorem Spells.lexeme (h : IsLexeme text t)
    (hread : ∀ fuel ts, readNode (fuel + 1) (t :: ts) = (n, ts)) : Spells text [t] n where
  scans := .lexeme h
  reads fuel ts hfuel := by
    obtain ⟨fuel, rfl⟩ := Nat.exists_eq_add_of_le' hfuel
    exact hread fuel ts

theorem Spells.blank (hbs : Blank bs) (h : Spells text tokens n) (hbs' : Blank bs') :
    Spells (bs ++ (text ++ bs')) tokens n where
  scans hrest hscans := by
    have hbehind := h.scans (hbs'.ends hrest) (hscans.blank hbs')
    simpa using hbehind.blank hbs
  reads := h.reads

/-- Items or members with the closing bracket are cut into these lexemes and read as this. -/
structure SpellsRest {α : Type} (read : Nat → List Token → α × List Token) (text : List Char)
    (tokens : List Token) (a : α) : Prop where
  scans : ∀ {rest ts}, Scans rest ts → Scans (text ++ rest) (tokens ++ ts)
  reads : ∀ fuel ts, tokens.length ≤ fuel → read fuel (tokens ++ ts) = (a, ts)

/-- What is written between commas and closed is built from its last part on. -/
theorem separate_induction {β : Type} {part : β → List Char} {close : Char}
    {P : List Char → List β → Prop} {bs : List β} (hne : bs ≠ [])
    (last : ∀ b ∈ bs, P (part b ++ [close]) [b])
    (more : ∀ b ∈ bs, ∀ cs bs', P cs bs' → P (part b ++ ',' :: cs) (b :: bs')) :
    P (separate (bs.map part) ++ [close]) bs := by
  induction bs with
  | nil => exact absurd rfl hne
  | cons b bs ih =>
    cases bs with
    | nil => exact last b List.mem_cons_self
    | cons c bs =>
      have hrest := ih (List.cons_ne_nil c bs) (fun d hd => last d (List.mem_cons_of_mem b hd))
        fun d hd => more d (List.mem_cons_of_mem b hd)
      simpa [separate] using more b List.mem_cons_self _ _ hrest

/-- A whole text is read without a rest. -/
theorem Spells.document (h : Spells text tokens n) :
    Document.read (String.ofList text) = ⟨n, false⟩ := by
  have hscan : ofText text = tokens := by
    have h' : Scans (text ++ []) (tokens ++ []) := h.scans nofun .nil
    simpa [ofText] using h' text.length
  have hread := h.reads (2 * tokens.length + 2) [] (by omega)
  rw [List.append_nil] at hread
  simp [Document.read, Document.ofTokens, hscan, hread]

/-! ## Arrays -/

theorem spellsItems_last (h : Spells text tokens n) :
    SpellsRest readItems (text ++ [']']) (tokens ++ [.arrayClose]) (.item n .closed) where
  scans hscans := by simpa using h.scans (by simp [Ends]) hscans.arrayClose
  reads fuel ts hfuel := by
    rw [List.length_append, List.length_singleton] at hfuel
    obtain ⟨fuel, rfl⟩ : ∃ k, fuel = k + 1 := ⟨fuel - 1, by omega⟩
    have hvalue := h.reads fuel (.arrayClose :: ts) (by omega)
    simp [readItems, hvalue]

theorem spellsItems_more {items : Items} (h : Spells text tokens n)
    (hs : SpellsRest readItems cs us items) :
    SpellsRest readItems (text ++ ',' :: cs) (tokens ++ .comma :: us) (.item n items) where
  scans hscans := by simpa using h.scans (by simp [Ends]) (hs.scans hscans).comma
  reads fuel ts hfuel := by
    rw [List.length_append, List.length_cons] at hfuel
    obtain ⟨fuel, rfl⟩ : ∃ k, fuel = k + 1 := ⟨fuel - 1, by omega⟩
    have hvalue := h.reads fuel (.comma :: (us ++ ts)) (by omega)
    simp [readItems, hvalue, hs.reads fuel ts (by omega)]

theorem exists_spellsItems {es : List Element} (hne : es ≠ [])
    (h : ∀ e ∈ es, ∃ tokens, Spells e.text tokens e.value) : ∃ us, SpellsRest readItems
      (separate (es.map Element.text) ++ [']']) us (.ofList (es.map Element.value)) := by
  refine separate_induction
    (P := fun cs es => ∃ us, SpellsRest readItems cs us (.ofList (es.map Element.value))) hne ?_ ?_
  · intro e he
    obtain ⟨tokens, hvalue⟩ := h e he
    exact ⟨_, spellsItems_last hvalue⟩
  · rintro e he cs es ⟨us, hs⟩
    obtain ⟨tokens, hvalue⟩ := h e he
    exact ⟨_, spellsItems_more hvalue hs⟩

/-- What does not close at once is read as items. -/
theorem readNode_arrayOpen (h : ts.head? ≠ some .arrayClose) (fuel : Nat) :
    readNode (fuel + 1) (.arrayOpen :: ts) =
      (.array (readItems fuel ts).1, (readItems fuel ts).2) := by
  cases ts with
  | nil => rfl
  | cons t ts => cases t <;> first | rfl | exact absurd rfl h

/-- Items do not begin with a closing bracket. -/
theorem SpellsRest.head_items {items : Items} (h : SpellsRest readItems cs us items) :
    (us ++ ts).head? ≠ some .arrayClose := by
  -- A closing bracket in front would be read as an item that is broken.
  have hread := h.reads (us.length + 2) [.junk] (by omega)
  cases us with
  | nil => cases hread
  | cons t us =>
    intro hclose
    cases hclose
    cases hread

theorem spells_array {items : Items} (h : SpellsRest readItems cs us items) :
    Spells ('[' :: cs) (.arrayOpen :: us) (.array items) where
  scans _ hscans := (h.scans hscans).arrayOpen
  reads fuel ts hfuel := by
    rw [List.length_cons] at hfuel
    obtain ⟨fuel, rfl⟩ : ∃ k, fuel = k + 1 := ⟨fuel - 1, by omega⟩
    rw [List.cons_append, readNode_arrayOpen h.head_items, h.reads fuel ts (by omega)]

/-! ## Objects -/

theorem KeyText.scans {key : Option String} (h : KeyText text key) (hs : Scans rest ts) :
    Scans (text ++ ':' :: rest) (.string key :: .colon :: ts) := by
  obtain ⟨hbs, h, hbs'⟩ := h
  have hscans := (hs.colon.blank hbs').lexeme (isLexeme_string h) (hbs'.ends (by simp [Ends]))
  simpa using hscans.blank hbs

variable {field : Field}

theorem spellsMembers_last (hkey : KeyText field.keyText field.key)
    (h : Spells field.text tokens field.value) :
    SpellsRest readMembers (field.keyText ++ ':' :: field.text ++ ['\x7d'])
      (.string field.key :: .colon :: (tokens ++ [.objectClose]))
      (.member field.key field.value .closed) where
  scans hscans := by simpa using hkey.scans (h.scans (by simp [Ends]) hscans.objectClose)
  reads fuel ts hfuel := by
    simp only [List.length_cons, List.length_append] at hfuel
    obtain ⟨fuel, rfl⟩ : ∃ k, fuel = k + 1 := ⟨fuel - 1, by omega⟩
    have hvalue := h.reads fuel (.objectClose :: ts) (by omega)
    simp [readMembers, hvalue]

theorem spellsMembers_more {members : Members} (hkey : KeyText field.keyText field.key)
    (h : Spells field.text tokens field.value) (hs : SpellsRest readMembers cs us members) :
    SpellsRest readMembers (field.keyText ++ ':' :: field.text ++ ',' :: cs)
      (.string field.key :: .colon :: (tokens ++ .comma :: us))
      (.member field.key field.value members) where
  scans hscans := by simpa using hkey.scans (h.scans (by simp [Ends]) (hs.scans hscans).comma)
  reads fuel ts hfuel := by
    simp only [List.length_cons, List.length_append] at hfuel
    obtain ⟨fuel, rfl⟩ : ∃ k, fuel = k + 1 := ⟨fuel - 1, by omega⟩
    have hvalue := h.reads fuel (.comma :: (us ++ ts)) (by omega)
    simp [readMembers, hvalue, hs.reads fuel ts (by omega)]

theorem exists_spellsMembers {fs : List Field} (hne : fs ≠ [])
    (hkeys : ∀ f ∈ fs, KeyText f.keyText f.key)
    (h : ∀ f ∈ fs, ∃ tokens, Spells f.text tokens f.value) : ∃ us, SpellsRest readMembers
      (separate (fs.map fun f => f.keyText ++ ':' :: f.text) ++ ['\x7d']) us
      (.ofList (fs.map fun f => (f.key, f.value))) := by
  refine separate_induction (P := fun cs fs => ∃ us,
    SpellsRest readMembers cs us (.ofList (fs.map fun f => (f.key, f.value)))) hne ?_ ?_
  · intro f hf
    obtain ⟨tokens, hvalue⟩ := h f hf
    exact ⟨_, spellsMembers_last (hkeys f hf) hvalue⟩
  · rintro f hf cs fs ⟨us, hs⟩
    obtain ⟨tokens, hvalue⟩ := h f hf
    exact ⟨_, spellsMembers_more (hkeys f hf) hvalue hs⟩

/-- What does not close at once is read as members. -/
theorem readNode_objectOpen (h : ts.head? ≠ some .objectClose) (fuel : Nat) :
    readNode (fuel + 1) (.objectOpen :: ts) =
      (.object (readMembers fuel ts).1, (readMembers fuel ts).2) := by
  cases ts with
  | nil => rfl
  | cons t ts => cases t <;> first | rfl | exact absurd rfl h

/-- Members do not begin with a closing brace. -/
theorem SpellsRest.head_members {members : Members} (h : SpellsRest readMembers cs us members) :
    (us ++ ts).head? ≠ some .objectClose := by
  have hread := h.reads (us.length + 2) [.junk] (by omega)
  cases us with
  | nil => cases hread
  | cons t us =>
    intro hclose
    cases hclose
    cases hread

theorem spells_object {members : Members} (h : SpellsRest readMembers cs us members) :
    Spells ('\x7b' :: cs) (.objectOpen :: us) (.object members) where
  scans _ hscans := (h.scans hscans).objectOpen
  reads fuel ts hfuel := by
    rw [List.length_cons] at hfuel
    obtain ⟨fuel, rfl⟩ : ∃ k, fuel = k + 1 := ⟨fuel - 1, by omega⟩
    rw [List.cons_append, readNode_objectOpen h.head_members, h.reads fuel ts (by omega)]

/-! ## Documents -/

theorem spells_blankArray (hbs : Blank bs) :
    Spells ('[' :: (bs ++ [']'])) [.arrayOpen, .arrayClose] (.array .closed) where
  scans _ hscans := by simpa using (hscans.arrayClose.blank hbs).arrayOpen
  reads fuel _ hfuel := by
    obtain ⟨fuel, rfl⟩ := Nat.exists_eq_add_of_le' hfuel
    rfl

theorem spells_blankObject (hbs : Blank bs) :
    Spells ('\x7b' :: (bs ++ ['\x7d'])) [.objectOpen, .objectClose] (.object .closed) where
  scans _ hscans := by simpa using (hscans.objectClose.blank hbs).objectOpen
  reads fuel _ hfuel := by
    obtain ⟨fuel, rfl⟩ := Nat.exists_eq_add_of_le' hfuel
    rfl

/-- A word is one lexeme. -/
theorem isLexeme_word {c : Char} {cs : List Char} (hc : isBlank c = false)
    (h : ∀ rest, lexeme? c (cs ++ rest) = some (t, rest)) : IsLexeme (c :: cs) t :=
  ⟨c, cs, rfl, hc, fun rest _ => h rest⟩

/-- The text of a value is read as that value, wherever it stands. -/
theorem ValueText.spells (h : ValueText text n) : ∃ tokens, Spells text tokens n := by
  induction h with
  | nullWord => exact ⟨_, .lexeme (isLexeme_word rfl fun _ => rfl) fun _ _ => rfl⟩
  | trueWord => exact ⟨_, .lexeme (isLexeme_word rfl fun _ => rfl) fun _ _ => rfl⟩
  | falseWord => exact ⟨_, .lexeme (isLexeme_word rfl fun _ => rfl) fun _ _ => rfl⟩
  | number h => exact ⟨_, .lexeme (isLexeme_number h) fun _ _ => rfl⟩
  | string h => exact ⟨_, .lexeme (isLexeme_string h) fun _ _ => rfl⟩
  | emptyArray hbs => exact ⟨_, spells_blankArray hbs⟩
  | array es hne _ ih =>
    obtain ⟨us, hitems⟩ := exists_spellsItems hne ih
    exact ⟨_, spells_array hitems⟩
  | emptyObject hbs => exact ⟨_, spells_blankObject hbs⟩
  | object fs hne hkeys _ ih =>
    obtain ⟨us, hmembers⟩ := exists_spellsMembers hne hkeys ih
    exact ⟨_, spells_object hmembers⟩
  | blank hbs _ hbs' ih => exact ih.elim fun _ h => ⟨_, h.blank hbs hbs'⟩

/-- A document is read without a broken place and without a rest. -/
theorem IsText.read {s : String} (h : IsText s n) : Document.read s = ⟨n, false⟩ := by
  obtain ⟨tokens, hspells⟩ := ValueText.spells h
  rw [← hspells.document, String.ofList_toList]

/-- Whatever a reader makes of a document is what it makes of its value. -/
theorem IsText.readText {α : Type} {s : String} (h : IsText s n) (reader : Reader α) :
    readText reader s = reader n := by
  rw [Json.readText, h.read]
  cases reader n <;> rfl

end Reattempt.Json
