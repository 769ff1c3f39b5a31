import Reattempt.Proofs.Json.Documents

/-!
# Only documents are read

What is read without a broken place and without a rest was put together by the
rules of the grammar. Each lexeme that is cut off is one of the grammar; the
tree is followed with the text beside it, where the blanks between two lexemes
are taken to the value before them. With the converse, a text is a document
exactly if reading it breaks nowhere and leaves nothing over.
-/

namespace Reattempt.Json

open Text Token

/-! ## Numbers -/

section Numbers

variable {cs ds fs rest : List Char} {e : Option Int} {t : Token}

theorem Token.digitRun_sound (h : digitRun cs = (ds, rest)) :
    cs = ds ++ rest ∧ ∀ c ∈ ds, c.isDigit = true := by
  cases h
  exact ⟨List.takeWhile_append_dropWhile.symm, List.all_eq_true.mp List.all_takeWhile⟩

theorem Token.wholePart?_sound (h : wholePart? cs = some (ds, rest)) :
    cs = ds ++ rest ∧ Whole ds := by
  rw [wholePart?] at h
  split at h
  · cases h
  · cases h
  · rename_i hne halone
    have hrun := Option.some.inj h
    obtain ⟨hcs, hdigits⟩ := digitRun_sound hrun
    refine ⟨hcs, hdigits, ?_, ?_⟩
    · rintro rfl
      exact hne _ hrun
    · rintro (_ | ⟨c, cs⟩) rfl
      · rfl
      · exact absurd hrun (halone _ _ _)

theorem Token.fraction?_sound (h : fraction? cs = some (fs, rest)) :
    ∃ text, cs = text ++ rest ∧ FractionText text fs := by
  unfold fraction? at h
  split at h
  · split at h
    · cases h
    · rename_i hne
      have hrun := Option.some.inj h
      obtain ⟨rfl, hdigits⟩ := digitRun_sound hrun
      refine ⟨'.' :: fs, rfl, .digits hdigits ?_⟩
      rintro rfl
      exact hne _ hrun
  · cases h
    exact ⟨[], rfl, .missing⟩

theorem Token.exponent?_sound (h : exponent? cs = some (e, rest)) :
    ∃ text, cs = text ++ rest ∧ ExponentText text e := by
  unfold exponent? at h
  split at h
  · cases h
    exact ⟨[], rfl, .missing⟩
  · split at h
    · rename_i mark cs hmark
      split at h
      rename_i negative cs' hsign
      have hsign' : ∃ sign, cs = sign ++ cs' ∧ SignText sign negative := by
        split at hsign <;> cases hsign
        · exact ⟨['-'], rfl, .minus⟩
        · exact ⟨['+'], rfl, .plus⟩
        · exact ⟨[], rfl, .missing⟩
      obtain ⟨sign, rfl, hsign'⟩ := hsign'
      split at h
      · cases h
      · rename_i hne hrun
        cases h
        obtain ⟨rfl, hdigits⟩ := digitRun_sound hrun
        exact ⟨mark :: (sign ++ _), by simp, .digits hmark hsign' hdigits hne⟩
    · cases h
      exact ⟨[], rfl, .missing⟩

theorem Token.unsigned?_sound {negative : Bool} (h : unsigned? negative cs = some (t, rest)) :
    ∃ n text, t = .number n ∧ cs = text ++ rest ∧
      NumberText ((if negative then ['-'] else []) ++ text) n := by
  simp only [unsigned?, Option.bind_eq_bind, Option.bind_eq_some_iff, Prod.exists,
    Option.some.injEq, Prod.mk.injEq] at h
  obtain ⟨ws, cs₁, hwhole, fs, cs₂, hfraction, e, cs₃, hexponent, rfl, rfl⟩ := h
  obtain ⟨rfl, hws⟩ := wholePart?_sound hwhole
  obtain ⟨fraction, rfl, hfs⟩ := fraction?_sound hfraction
  obtain ⟨exponent, rfl, he⟩ := exponent?_sound hexponent
  exact ⟨_, ws ++ (fraction ++ exponent), rfl, by simp, .mk negative hws hfs he⟩

end Numbers

/-! ## Strings -/

theorem Token.pieces?_sound {cs rest : List Char} {ps : List Piece}
    (h : pieces? cs = some (ps, rest)) : ∃ text, cs = text ++ '"' :: rest ∧ PiecesText text ps := by
  fun_induction pieces? cs generalizing ps rest with
  | case1 => cases h
  | case2 cs =>
    cases h
    exact ⟨[], rfl, .nil⟩
  | case3 a b c d cs ih =>
    simp only [Option.bind_eq_bind, Option.bind_eq_some_iff, Prod.exists, Option.some.injEq,
      Prod.mk.injEq] at h
    obtain ⟨i, hi, j, hj, k, hk, l, hl, ps, rest, hpieces, rfl, rfl⟩ := h
    obtain ⟨text, rfl, htext⟩ := ih hpieces
    exact ⟨_, rfl, .unit hi hj hk hl htext⟩
  | case4 l cs hunit ih =>
    simp only [Option.bind_eq_bind, Option.bind_eq_some_iff, Prod.exists, Option.some.injEq,
      Prod.mk.injEq] at h
    obtain ⟨c, hc, ps, rest, hpieces, rfl, rfl⟩ := h
    obtain ⟨text, rfl, htext⟩ := ih hpieces
    exact ⟨_, rfl, .letter hc htext⟩
  | case5 => cases h
  | case6 c cs hquote hunit hletter hplain ih =>
    simp only [Option.bind_eq_bind, Option.bind_eq_some_iff, Prod.exists, Option.some.injEq,
      Prod.mk.injEq] at h
    obtain ⟨ps, rest, hpieces, rfl, rfl⟩ := h
    obtain ⟨text, rfl, htext⟩ := ih hpieces
    obtain ⟨hprinted, hslash⟩ := not_or.mp hplain
    exact ⟨_, rfl, .char hprinted hquote hslash htext⟩

/-! ## Lexemes -/

/-- The text of a lexeme. -/
inductive LexemeText : List Char → Token → Prop where
  | arrayOpen : LexemeText ['['] .arrayOpen
  | arrayClose : LexemeText [']'] .arrayClose
  | objectOpen : LexemeText ['\x7b'] .objectOpen
  | objectClose : LexemeText ['\x7d'] .objectClose
  | comma : LexemeText [','] .comma
  | colon : LexemeText [':'] .colon
  | null : LexemeText ['n', 'u', 'l', 'l'] .null
  | yes : LexemeText ['t', 'r', 'u', 'e'] (.bool true)
  | no : LexemeText ['f', 'a', 'l', 's', 'e'] (.bool false)
  | number {cs : List Char} {n : Numeral} (h : NumberText cs n) : LexemeText cs (.number n)
  | string {cs : List Char} {s : Option String} (h : StringText cs s) : LexemeText cs (.string s)

theorem Token.after?_sound {word cs rest : List Char} (h : after? word cs = some rest) :
    cs = word ++ rest := by
  fun_induction after? word cs with
  | case1 => exact Option.some.inj h
  | case2 => cases h
  | case3 w ws cs ih => rw [ih h, List.cons_append]
  | case4 => cases h

theorem Token.lexeme?_sound {c : Char} {cs rest : List Char} {t : Token}
    (h : lexeme? c cs = some (t, rest)) :
    ∃ text, c :: cs = text ++ rest ∧ LexemeText text t := by
  unfold lexeme? at h
  split at h
  · cases h; exact ⟨_, rfl, .arrayOpen⟩
  · cases h; exact ⟨_, rfl, .arrayClose⟩
  · cases h; exact ⟨_, rfl, .objectOpen⟩
  · cases h; exact ⟨_, rfl, .objectClose⟩
  · cases h; exact ⟨_, rfl, .comma⟩
  · cases h; exact ⟨_, rfl, .colon⟩
  · obtain ⟨rest', hword, hpair⟩ := Option.map_eq_some_iff.mp h
    cases hpair
    exact ⟨['n', 'u', 'l', 'l'], by rw [after?_sound hword]; rfl, .null⟩
  · obtain ⟨rest', hword, hpair⟩ := Option.map_eq_some_iff.mp h
    cases hpair
    exact ⟨['t', 'r', 'u', 'e'], by rw [after?_sound hword]; rfl, .yes⟩
  · obtain ⟨rest', hword, hpair⟩ := Option.map_eq_some_iff.mp h
    cases hpair
    exact ⟨['f', 'a', 'l', 's', 'e'], by rw [after?_sound hword]; rfl, .no⟩
  · obtain ⟨⟨ps, rest'⟩, hpieces, hpair⟩ := Option.map_eq_some_iff.mp h
    cases hpair
    obtain ⟨text, rfl, htext⟩ := pieces?_sound hpieces
    exact ⟨_, by simp, .string (.mk htext)⟩
  · obtain ⟨n, text, rfl, rfl, hnumber⟩ := unsigned?_sound h
    exact ⟨_, rfl, .number hnumber⟩
  · obtain ⟨n, text, rfl, htext, hnumber⟩ := unsigned?_sound h
    exact ⟨_, htext, .number hnumber⟩

/-! ## Cutting a text -/

/-- A text is cut into lexemes, with blanks between them, as far as it goes. -/
inductive Cut : List Char → List Token → Prop where
  | done {bs : List Char} (hbs : Blank bs) : Cut bs []
  | junk (cs : List Char) : Cut cs [.junk]
  | lexeme {bs text rest : List Char} {t : Token} {ts : List Token} (hbs : Blank bs)
    (h : LexemeText text t) (hrest : Cut rest ts) : Cut (bs ++ (text ++ rest)) (t :: ts)

section Cutting

variable {cs : List Char} {ts : List Token}

theorem blank_cons {c : Char} (hc : isBlank c = true) (hcs : Blank cs) : Blank (c :: cs) :=
  List.forall_mem_cons.mpr ⟨hc, hcs⟩

theorem Cut.blank {c : Char} (hc : isBlank c = true) (h : Cut cs ts) : Cut (c :: cs) ts := by
  cases h with
  | done hbs => exact .done (blank_cons hc hbs)
  | junk => exact .junk _
  | lexeme hbs h hrest =>
    rw [← List.cons_append]
    exact .lexeme (blank_cons hc hbs) h hrest

theorem cut_scan (fuel : Nat) (cs : List Char) : Cut cs (scan fuel cs) := by
  induction fuel generalizing cs with
  | zero =>
    cases cs with
    | nil => exact .done nofun
    | cons c cs => exact .junk _
  | succ fuel ih =>
    cases cs with
    | nil => exact .done nofun
    | cons c cs =>
      rw [scan]
      split
      · exact (ih cs).blank ‹_›
      · split
        · rename_i t rest hlexeme
          obtain ⟨text, htext, hlexeme'⟩ := lexeme?_sound hlexeme
          rw [htext]
          exact .lexeme blank_nil hlexeme' (ih rest)
        · exact .junk _

end Cutting

/-! ## Values -/

section Trees

variable {cs text post : List Char} {t : Token} {ts rest : List Token} {n : Node} {fuel : Nat}

theorem Cut.inv (h : Cut cs (t :: ts)) (ht : t ≠ .junk) : ∃ bs text post,
    cs = bs ++ (text ++ post) ∧ Blank bs ∧ LexemeText text t ∧ Cut post ts := by
  cases h with
  | junk => exact absurd rfl ht
  | lexeme hbs h hrest => exact ⟨_, _, _, rfl, hbs, h, hrest⟩

/-- What is read from some lexemes as a value stands in front of the text, if nothing is broken. -/
def SoundNodes (fuel : Nat) : Prop :=
  ∀ {cs ts n rest}, readNode fuel ts = (n, rest) → n.intact = true → Cut cs ts →
    ∃ text post, cs = text ++ post ∧ ValueText text n ∧ Cut post rest

/-- So do items, up to the closing bracket. -/
def SoundItems (fuel : Nat) : Prop :=
  ∀ {cs ts items rest}, readItems fuel ts = (items, rest) → items.intact = true → Cut cs ts →
    ∃ (es : List Element) (post : List Char), es ≠ [] ∧ (∀ e ∈ es, ValueText e.text e.value) ∧
      items = .ofList (es.map Element.value) ∧
      cs = separate (es.map Element.text) ++ ']' :: post ∧ Cut post rest

/-- So do members, up to the closing brace. -/
def SoundMembers (fuel : Nat) : Prop :=
  ∀ {cs ts members rest}, readMembers fuel ts = (members, rest) → members.intact = true →
    Cut cs ts → ∃ (fs : List Field) (post : List Char), fs ≠ [] ∧
      (∀ f ∈ fs, KeyText f.keyText f.key) ∧ (∀ f ∈ fs, ValueText f.text f.value) ∧
      members = .ofList (fs.map fun f => (f.key, f.value)) ∧
      cs = separate (fs.map fun f => f.keyText ++ ':' :: f.text) ++ '\x7d' :: post ∧ Cut post rest

theorem soundNodes_atom (h : Cut cs (t :: rest)) (ht : t ≠ .junk)
    (hvalue : ∀ {text}, LexemeText text t → ValueText text n) :
    ∃ text post, cs = text ++ post ∧ ValueText text n ∧ Cut post rest := by
  obtain ⟨bs, text, post, rfl, hbs, hlexeme, hrest⟩ := h.inv ht
  exact ⟨bs ++ text, post, by simp, (hvalue hlexeme).before hbs, hrest⟩

theorem soundNodes_arrayOpen (hitems : SoundItems fuel)
    (h : readNode (fuel + 1) (.arrayOpen :: ts) = (n, rest)) (hintact : n.intact = true)
    (hcut : Cut cs (.arrayOpen :: ts)) :
    ∃ text post, cs = text ++ post ∧ ValueText text n ∧ Cut post rest := by
  obtain ⟨bs, _, cs, rfl, hbs, ⟨⟩, hrest⟩ := hcut.inv nofun
  by_cases hclose : ts.head? = some .arrayClose
  · obtain ⟨ts, rfl⟩ := List.head?_eq_some_iff.mp hclose
    cases h
    obtain ⟨bs', _, post, rfl, hbs', ⟨⟩, hpost⟩ := hrest.inv nofun
    have harray := ValueText.before hbs (.emptyArray hbs')
    exact ⟨_, post, by simp, harray, hpost⟩
  · rw [readNode_arrayOpen hclose] at h
    cases h
    obtain ⟨es, post, hne, hes, hitems, rfl, hpost⟩ := hitems rfl hintact hrest
    have harray := ValueText.before hbs (.array es hne hes)
    rw [← hitems] at harray
    exact ⟨_, post, by simp [writeArray], harray, hpost⟩

theorem soundNodes_objectOpen (hmembers : SoundMembers fuel)
    (h : readNode (fuel + 1) (.objectOpen :: ts) = (n, rest)) (hintact : n.intact = true)
    (hcut : Cut cs (.objectOpen :: ts)) :
    ∃ text post, cs = text ++ post ∧ ValueText text n ∧ Cut post rest := by
  obtain ⟨bs, _, cs, rfl, hbs, ⟨⟩, hrest⟩ := hcut.inv nofun
  by_cases hclose : ts.head? = some .objectClose
  · obtain ⟨ts, rfl⟩ := List.head?_eq_some_iff.mp hclose
    cases h
    obtain ⟨bs', _, post, rfl, hbs', ⟨⟩, hpost⟩ := hrest.inv nofun
    have hobject := ValueText.before hbs (.emptyObject hbs')
    exact ⟨_, post, by simp, hobject, hpost⟩
  · rw [readNode_objectOpen hclose] at h
    cases h
    obtain ⟨fs, post, hne, hkeys, hfs, hmembers, rfl, hpost⟩ := hmembers rfl hintact hrest
    have hobject := ValueText.before hbs (.object fs hne hkeys hfs)
    rw [← hmembers] at hobject
    exact ⟨_, post, by simp, hobject, hpost⟩

theorem soundNodes_succ (hitems : SoundItems fuel) (hmembers : SoundMembers fuel) :
    SoundNodes (fuel + 1) := by
  intro cs ts n rest h hintact hcut
  cases ts with
  | nil => cases h; cases hintact
  | cons t ts =>
    cases t with
    | null => cases h; exact soundNodes_atom hcut nofun fun | .null => .nullWord
    | bool b =>
      cases h
      exact soundNodes_atom hcut nofun fun
        | .yes => .trueWord
        | .no => .falseWord
    | number m => cases h; exact soundNodes_atom hcut nofun fun | .number h => .number h
    | string s => cases h; exact soundNodes_atom hcut nofun fun | .string h => .string h
    | arrayOpen => exact soundNodes_arrayOpen hitems h hintact hcut
    | objectOpen => exact soundNodes_objectOpen hmembers h hintact hcut
    | _ => cases h; cases hintact

theorem soundItems_succ (hnodes : SoundNodes fuel) (hitems : SoundItems fuel) :
    SoundItems (fuel + 1) := by
  intro cs ts items rest h hintact hcut
  rw [readItems] at h
  split at h
  · rename_i value ts hvalue
    cases h
    have hvalue' : value.intact = true := by simpa [Items.intact] using hintact
    obtain ⟨text, post, rfl, htext, hclose⟩ := hnodes hvalue hvalue' hcut
    obtain ⟨bs, _, post, rfl, hbs, ⟨⟩, hpost⟩ := hclose.inv (by simp)
    refine ⟨[⟨text ++ bs, value⟩], post, List.cons_ne_nil _ _, ?_, rfl, ?_, hpost⟩
    · exact List.forall_mem_singleton.mpr (htext.behind hbs)
    · simp [separate]
  · rename_i value ts hvalue
    cases h
    obtain ⟨hvalue', hrest⟩ : value.intact = true ∧ (readItems fuel ts).1.intact = true := by
      simpa [Items.intact] using hintact
    obtain ⟨text, post, rfl, htext, hcomma⟩ := hnodes hvalue hvalue' hcut
    obtain ⟨bs, _, post, rfl, hbs, ⟨⟩, hmore⟩ := hcomma.inv (by simp)
    obtain ⟨es, post, hne, hes, hitems, rfl, hpost⟩ := hitems rfl hrest hmore
    refine ⟨⟨text ++ bs, value⟩ :: es, post, List.cons_ne_nil _ _, ?_, ?_, ?_, hpost⟩
    · exact List.forall_mem_cons.mpr ⟨htext.behind hbs, hes⟩
    · rw [hitems]
      rfl
    · obtain ⟨e, es, rfl⟩ := List.exists_cons_of_ne_nil hne
      simp [separate]
  · cases h
    simp [Items.intact] at hintact

/-- A key and its colon stand in front of the text. -/
theorem Cut.key {key : Option String} (h : Cut cs (.string key :: .colon :: ts)) :
    ∃ keyText post, cs = keyText ++ ':' :: post ∧ KeyText keyText key ∧ Cut post ts := by
  obtain ⟨bs, text, post, rfl, hbs, htext, hcolon⟩ := h.inv nofun
  obtain ⟨bs', _, post, rfl, hbs', ⟨⟩, hpost⟩ := hcolon.inv nofun
  cases htext with
  | string htext => exact ⟨_, post, by simp, .mk hbs htext hbs', hpost⟩

theorem soundMembers_succ (hnodes : SoundNodes fuel) (hmembers : SoundMembers fuel) :
    SoundMembers (fuel + 1) := by
  intro cs ts members rest h hintact hcut
  unfold readMembers at h
  split at h
  · cases h
    cases hintact
  · rename_i fuel' key ts hfuel
    cases hfuel
    obtain ⟨keyText, post, rfl, hkey, hvalues⟩ := hcut.key
    split at h
    · rename_i value ts hvalue
      cases h
      have hvalue' : value.intact = true := by simpa [Members.intact] using hintact
      obtain ⟨text, post, rfl, htext, hclose⟩ := hnodes hvalue hvalue' hvalues
      obtain ⟨bs, _, post, rfl, hbs, ⟨⟩, hpost⟩ := hclose.inv (by simp)
      refine ⟨[⟨keyText, key, text ++ bs, value⟩], post, List.cons_ne_nil _ _, ?_, ?_, rfl, ?_, hpost⟩
      · exact List.forall_mem_singleton.mpr hkey
      · exact List.forall_mem_singleton.mpr (htext.behind hbs)
      · simp [separate]
    · rename_i value ts hvalue
      cases h
      obtain ⟨hvalue', hrest⟩ : value.intact = true ∧ (readMembers fuel ts).1.intact = true := by
        simpa [Members.intact] using hintact
      obtain ⟨text, post, rfl, htext, hcomma⟩ := hnodes hvalue hvalue' hvalues
      obtain ⟨bs, _, post, rfl, hbs, ⟨⟩, hmore⟩ := hcomma.inv (by simp)
      obtain ⟨fs, post, hne, hkeys, hfs, hmembers, rfl, hpost⟩ := hmembers rfl hrest hmore
      refine ⟨⟨keyText, key, text ++ bs, value⟩ :: fs, post, List.cons_ne_nil _ _, ?_, ?_, ?_, ?_, hpost⟩
      · exact List.forall_mem_cons.mpr ⟨hkey, hkeys⟩
      · exact List.forall_mem_cons.mpr ⟨htext.behind hbs, hfs⟩
      · rw [hmembers]
        rfl
      · obtain ⟨f, fs, rfl⟩ := List.exists_cons_of_ne_nil hne
        simp [separate]
    · cases h
      simp [Members.intact] at hintact
  · cases h
    simp [Members.intact, Node.intact] at hintact
  · cases h
    cases hintact

theorem sound (fuel : Nat) : SoundNodes fuel ∧ SoundItems fuel ∧ SoundMembers fuel := by
  -- The three call one another with one fuel less, so they are proved together.
  induction fuel with
  | zero =>
    -- Without fuel all that is read is broken.
    refine ⟨?_, ?_, ?_⟩
    · intro cs ts n rest h hintact
      cases h
      cases hintact
    · intro cs ts items rest h hintact
      cases h
      cases hintact
    · intro cs ts members rest h hintact
      cases h
      cases hintact
  | succ fuel ih =>
    obtain ⟨hnodes, hitems, hmembers⟩ := ih
    exact ⟨soundNodes_succ hitems hmembers, soundItems_succ hnodes hitems,
      soundMembers_succ hnodes hmembers⟩

end Trees

/-! ## Documents -/

section Documents

variable {text : String} {n : Node}

theorem isText_of_read (h : Document.read text = ⟨n, false⟩) (hintact : n.intact = true) :
    IsText text n := by
  have hcut : Cut text.toList (ofText text.toList) := cut_scan _ _
  rw [Document.read, Document.ofTokens] at h
  generalize ofText text.toList = ts at h hcut
  cases hread : readNode (2 * ts.length + 2) ts with
  | mk root rest =>
    simp only [hread, Document.mk.injEq, Bool.not_eq_false', List.isEmpty_iff] at h
    obtain ⟨rfl, rfl⟩ := h
    obtain ⟨text', post, htext, hvalue, hpost⟩ := (sound _).1 hread hintact hcut
    cases hpost with
    | done hbs =>
      rw [IsText, htext]
      exact hvalue.behind hbs

/-- A text is a document exactly if reading it breaks nowhere and leaves nothing over. -/
theorem isText_iff : IsText text n ↔ Document.read text = ⟨n, false⟩ ∧ n.intact = true := by
  constructor
  · intro h
    exact ⟨h.read, ValueText.intact h⟩
  · rintro ⟨hread, hintact⟩
    exact isText_of_read hread hintact

end Documents

end Reattempt.Json
