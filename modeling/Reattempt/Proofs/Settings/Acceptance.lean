import Reattempt.Proofs.Json.Recognition
import Reattempt.Proofs.Settings.Values

/-!
# Which objects are settings

An object is read as settings exactly if all its keys name texts, none of the
four fields is given twice, and each one that is given has a value that is
acceptable for it. A field that is given gets that value, another one its
standard value. Nothing else in the text matters: neither blanks nor the order
of the members, and members under other keys may hold anything.

A key in which a surrogate stands alone names no text, although the object is a
document. Such an object is never read, whatever else it says.
-/

namespace Reattempt.Settings

open Backoff Json Number

/-! ## The fields that are given -/

/-- All keys name texts. -/
def Named (ms : List (Option String × Node)) : Prop := ∀ m ∈ ms, m.1 ≠ none

/-- The values given under a name, in their order. -/
def valuesOf (name : String) (ms : List (Option String × Node)) : List Node :=
  (ms.filter (·.1 = some name)).map Prod.snd

/-- A field has the value that is given, or the standard value if none is. -/
inductive FieldIs {α : Type} (accepted : Node → α → Prop) (standard : α) : List Node → α → Prop where
  | missing : FieldIs accepted standard [] standard
  | given {v : Node} {a : α} (h : accepted v a) : FieldIs accepted standard [v] a

/-- The settings that members stand for. -/
structure SettingsAre (round : Rounding) (ms : List (Option String × Node)) (s : Settings) :
    Prop where
  base : FieldIs (MillisIs round) standard.base (valuesOf baseName ms) s.base
  ceiling : FieldIs (MillisIs round) standard.ceiling (valuesOf ceilingName ms) s.ceiling
  deadline : FieldIs (MillisIs round) standard.deadline (valuesOf deadlineName ms) s.deadline
  jitter : FieldIs JitterIs standard.jitter (valuesOf jitterName ms) s.jitter

def fieldNames : List String := [baseName, ceilingName, deadlineName, jitterName]

/-- The members that name a field. -/
def known (ms : List (Option String × Node)) : List (Option String × Node) :=
  ms.filter (·.1 ∈ fieldNames.map some)

/-! ## Filling the fields -/

section Filling

variable {round : Rounding} {α : Type} {reader : Reader α} {v : Node} {vs : List Node}
  {old new : Option α} {f f' : Fields} {key : String} {rest : Members}

/-- What becomes of a field when values are given for it one after the other. -/
def Filled (reader : Reader α) : List Node → Option α → Option α → Prop
  | [], old, new => new = old
  | v :: vs, old, new => old = none ∧ ∃ a, reader v = .ok a ∧ Filled reader vs (some a) new

theorem fillOnce_eq_ok {name : String} {get : Fields → Option α} {set : α → Fields → Fields} :
    (Slot.optional name get set reader).fillOnce .refused v f = .ok f' ↔
      get f = none ∧ ∃ a, reader v = .ok a ∧ set a f = f' := by
  rw [Slot.fillOnce]
  cases hget : get f with
  | some a => simp [Slot.optional, hget]
  | none => cases hread : reader v <;> simp [Slot.optional, hget, hread]

theorem fill_named {name : String} {get : Fields → Option α} {set : α → Fields → Fields}
    (h : Slot.named? (slots round) name = some (.optional name get set reader)) :
    (Members.member (some name) v rest).fill (slots round) f = .ok f' ↔
      get f = none ∧ ∃ a, reader v = .ok a ∧ rest.fill (slots round) (set a f) = .ok f' := by
  have hstep : (Members.member (some name) v rest).fill (slots round) f = .ok f' ↔
      ∃ g, (Slot.optional name get set reader).fillOnce .refused v f = .ok g ∧
        rest.fill (slots round) g = .ok f' := by
    simp only [Members.fill, h]
    cases (Slot.optional name get set reader).fillOnce .refused v f <;> simp [bind, Except.bind]
  rw [hstep]
  constructor
  · rintro ⟨g, hfill, hrest⟩
    obtain ⟨hget, a, hread, rfl⟩ := fillOnce_eq_ok.mp hfill
    exact ⟨hget, a, hread, hrest⟩
  · rintro ⟨hget, a, hread, hrest⟩
    exact ⟨_, fillOnce_eq_ok.mpr ⟨hget, a, hread, rfl⟩, hrest⟩

theorem fill_unnamed (h : Slot.named? (slots round) key = none) (hv : v.intact = true) :
    (Members.member (some key) v rest).fill (slots round) f = rest.fill (slots round) f := by
  simp only [Members.fill, h, if_pos hv]

variable {name : String} {ms : List (Option String × Node)}

theorem filled_same : Filled reader (valuesOf name ((some name, v) :: ms)) old new ↔
    old = none ∧ ∃ a, reader v = .ok a ∧ Filled reader (valuesOf name ms) (some a) new := by
  simp [valuesOf, Filled]

theorem filled_other (h : key ≠ name) :
    Filled reader (valuesOf name ((some key, v) :: ms)) old new ↔
      Filled reader (valuesOf name ms) old new := by
  simp [valuesOf, h]

/-- What becomes of all four fields. -/
@[mk_iff allFilled_iff]
structure AllFilled (round : Rounding) (ms : List (Option String × Node)) (f f' : Fields) :
    Prop where
  base : Filled (readMillis round) (valuesOf baseName ms) f.base f'.base
  ceiling : Filled (readMillis round) (valuesOf ceilingName ms) f.ceiling f'.ceiling
  deadline : Filled (readMillis round) (valuesOf deadlineName ms) f.deadline f'.deadline
  jitter : Filled (readJitter round) (valuesOf jitterName ms) f.jitter f'.jitter

theorem named?_eq_none : Slot.named? (slots round) key = none ↔ key ∉ fieldNames := by
  have hnames : fieldNames = (slots round).map Slot.name := rfl
  simp [Slot.named?, hnames]

theorem allFilled_nil : AllFilled round [] f f' ↔ f' = f := by
  obtain ⟨base, ceiling, deadline, jitter⟩ := f
  obtain ⟨base', ceiling', deadline', jitter'⟩ := f'
  simp [allFilled_iff, valuesOf, Filled]

theorem allFilled_other (h : key ∉ fieldNames) :
    AllFilled round ((some key, v) :: ms) f f' ↔ AllFilled round ms f f' := by
  have hnames : ∀ name ∈ fieldNames, key ≠ name := fun name hname hkey => h (hkey ▸ hname)
  simp only [fieldNames, List.forall_mem_cons] at hnames
  obtain ⟨hbase, hceiling, hdeadline, hjitter, -⟩ := hnames
  rw [allFilled_iff, allFilled_iff, filled_other hbase, filled_other hceiling,
    filled_other hdeadline, filled_other hjitter]

/-- The next value goes to the field that its key names. -/
theorem fill_known (hkey : key ∈ fieldNames) {p : Prop}
    (hrest : ∀ g, rest.fill (slots round) g = .ok f' ↔ p ∧ AllFilled round ms g f') :
    (Members.member (some key) v rest).fill (slots round) f = .ok f' ↔
      p ∧ AllFilled round ((some key, v) :: ms) f f' := by
  have hnames : fieldNames.Nodup := by decide
  simp only [fieldNames, List.mem_cons, List.not_mem_nil, or_false] at hkey
  rcases hkey with rfl | rfl | rfl | rfl
  -- In each case one field takes the value, and the other three go on as they were.
  all_goals
    rw [fill_named rfl]
    simp only [hrest, allFilled_iff]
    grind [filled_same, filled_other, fieldNames]

theorem named_cons : Named ((some key, v) :: ms) ↔ Named ms := by
  simp [Named]

/-- Members are read just if all keys name texts and the fields get their values. -/
theorem fill_eq_ok (hintact : ∀ m ∈ ms, m.2.intact = true) :
    (Members.ofList ms).fill (slots round) f = .ok f' ↔ Named ms ∧ AllFilled round ms f f' := by
  induction ms generalizing f with
  | nil =>
    rw [allFilled_nil]
    constructor
    · intro h
      exact ⟨List.forall_mem_nil _, (Except.ok.inj h).symm⟩
    · rintro ⟨-, rfl⟩
      rfl
  | cons m ms ih =>
    obtain ⟨key, v⟩ := m
    obtain ⟨hv, hrest⟩ := List.forall_mem_cons.mp hintact
    rw [Members.ofList]
    cases key with
    | none =>
      constructor
      · intro h
        cases h
      · rintro ⟨hnamed, -⟩
        exact absurd rfl (hnamed _ List.mem_cons_self)
    | some key =>
      rw [named_cons]
      by_cases hkey : key ∈ fieldNames
      · exact fill_known hkey fun g => ih hrest
      · rw [fill_unnamed (named?_eq_none.mpr hkey) hv, allFilled_other hkey]
        exact ih hrest

theorem filled_some {a : α} : Filled reader vs (some a) new ↔ vs = [] ∧ new = some a := by
  cases vs <;> simp [Filled]

/-- A field that is filled, or left as it is by default, has the value it should have. -/
theorem fieldIs_iff {accepted : Node → α → Prop} {standard a : α}
    (haccepted : ∀ {v a}, reader v = .ok a ↔ accepted v a) :
    FieldIs accepted standard vs a ↔ ∃ new, Filled reader vs none new ∧ new.getD standard = a := by
  constructor
  · rintro (_ | h)
    · exact ⟨none, rfl, rfl⟩
    · exact ⟨some a, ⟨rfl, a, haccepted.mpr h, rfl⟩, rfl⟩
  · rintro ⟨new, hfilled, rfl⟩
    cases vs with
    | nil =>
      obtain rfl : new = none := hfilled
      exact .missing
    | cons v vs =>
      obtain ⟨-, a, hread, hrest⟩ := hfilled
      obtain ⟨rfl, rfl⟩ := filled_some.mp hrest
      exact .given (haccepted.mp hread)

theorem settingsAre_iff {s : Settings} :
    SettingsAre round ms s ↔ ∃ g, AllFilled round ms .empty g ∧ g.settings = s := by
  constructor
  · rintro ⟨hbase, hceiling, hdeadline, hjitter⟩
    obtain ⟨base, hbase, hbase'⟩ := (fieldIs_iff readMillis_eq_ok).mp hbase
    obtain ⟨ceiling, hceiling, hceiling'⟩ := (fieldIs_iff readMillis_eq_ok).mp hceiling
    obtain ⟨deadline, hdeadline, hdeadline'⟩ := (fieldIs_iff readMillis_eq_ok).mp hdeadline
    obtain ⟨jitter, hjitter, hjitter'⟩ := (fieldIs_iff readJitter_eq_ok).mp hjitter
    refine ⟨⟨base, ceiling, deadline, jitter⟩, ⟨hbase, hceiling, hdeadline, hjitter⟩, ?_⟩
    rw [Fields.settings, hbase', hceiling', hdeadline', hjitter']
  · rintro ⟨g, ⟨hbase, hceiling, hdeadline, hjitter⟩, rfl⟩
    constructor
    · exact (fieldIs_iff readMillis_eq_ok).mpr ⟨_, hbase, rfl⟩
    · exact (fieldIs_iff readMillis_eq_ok).mpr ⟨_, hceiling, rfl⟩
    · exact (fieldIs_iff readMillis_eq_ok).mpr ⟨_, hdeadline, rfl⟩
    · exact (fieldIs_iff readJitter_eq_ok).mpr ⟨_, hjitter, rfl⟩

end Filling

/-! ## Reading a text -/

section Reading

variable {round : Rounding} {text text' : String} {ms ms' : List (Option String × Node)}
  {s : Settings}

theorem intact_of_isText (h : IsText text (.object (.ofList ms))) :
    ∀ m ∈ ms, m.2.intact = true :=
  Members.intact_ofList_iff.mp (ValueText.intact h)

theorem readRounded_eq (h : IsText text (.object (.ofList ms))) : readRounded round text =
    Fields.settings <$> (Members.ofList ms).fill (slots round) .empty :=
  h.readText (reader round)

theorem readRounded_eq_ok (h : IsText text (.object (.ofList ms))) :
    readRounded round text = .ok s ↔ Named ms ∧ SettingsAre round ms s := by
  have hfill : (∃ g, (Members.ofList ms).fill (slots round) .empty = .ok g ∧ g.settings = s) ↔
      Named ms ∧ SettingsAre round ms s := by
    simp only [fill_eq_ok (intact_of_isText h), and_assoc, exists_and_left, settingsAre_iff]
  rw [readRounded_eq h, ← hfill]
  cases (Members.ofList ms).fill (slots round) .empty <;> simp

/-! ## What does not matter -/

theorem known_cons (m : Option String × Node) (ms : List (Option String × Node)) :
    known (m :: ms) = if m.1 ∈ fieldNames.map some then m :: known ms else known ms := by
  by_cases h : m.1 ∈ fieldNames.map some <;> simp only [known, h, decide_true, decide_false,
    List.filter_cons, Bool.false_eq_true, ↓reduceIte]

theorem fill_congr {key : Option String} {v : Node} {rest rest' : Members} {f : Fields}
    (h : ∀ g, rest.fill (slots round) g = rest'.fill (slots round) g) :
    (Members.member key v rest).fill (slots round) f =
      (Members.member key v rest').fill (slots round) f := by
  cases key with
  | none => rfl
  | some key => simp only [Members.fill, h]

/-- Members of other names are skipped, whatever well-formed values they have. -/
theorem fill_eq_fill_known {f : Fields} (hnamed : Named ms)
    (hintact : ∀ m ∈ ms, m.2.intact = true) :
    (Members.ofList ms).fill (slots round) f = (Members.ofList (known ms)).fill (slots round) f := by
  induction ms generalizing f with
  | nil => rfl
  | cons m ms ih =>
    obtain ⟨key, v⟩ := m
    obtain ⟨hkey, hkeys⟩ := List.forall_mem_cons.mp hnamed
    obtain ⟨hv, hrest⟩ := List.forall_mem_cons.mp hintact
    obtain ⟨key, rfl⟩ := Option.ne_none_iff_exists'.mp hkey
    rw [known_cons]
    by_cases hknown : some key ∈ fieldNames.map some
    · rw [if_pos hknown]
      exact fill_congr fun g => ih hkeys hrest
    · rw [if_neg hknown, ← ih hkeys hrest]
      refine fill_unnamed (named?_eq_none.mpr fun hkey => hknown ?_) hv
      exact List.mem_map_of_mem hkey

theorem read_eq_of_known (h : IsText text (.object (.ofList ms))) (hnamed : Named ms)
    (h' : IsText text' (.object (.ofList ms'))) (hnamed' : Named ms')
    (hknown : known ms' = known ms) : readRounded round text' = readRounded round text := by
  rw [readRounded_eq h, readRounded_eq h', fill_eq_fill_known hnamed (intact_of_isText h),
    fill_eq_fill_known hnamed' (intact_of_isText h'), hknown]

theorem valuesOf_known {name : String} (hname : name ∈ fieldNames) :
    valuesOf name (known ms) = valuesOf name ms := by
  have hfilter : ∀ m ∈ ms,
      (decide (m.1 = some name) && decide (m.1 ∈ fieldNames.map some)) =
        decide (m.1 = some name) := by
    intro m _
    by_cases hm : m.1 = some name <;> simp [hm, hname]
  rw [valuesOf, known, List.filter_filter, List.filter_congr hfilter, valuesOf]

theorem valuesOf_perm {name : String} (hname : name ∈ fieldNames)
    (h : (known ms').Perm (known ms)) : (valuesOf name ms).Perm (valuesOf name ms') := by
  have hvalues : (valuesOf name (known ms)).Perm (valuesOf name (known ms')) :=
    (h.symm.filter _).map _
  rwa [valuesOf_known hname, valuesOf_known hname] at hvalues

theorem FieldIs.perm {α : Type} {accepted : Node → α → Prop} {standard a : α} {vs vs' : List Node}
    (h : FieldIs accepted standard vs a) (hperm : vs.Perm vs') :
    FieldIs accepted standard vs' a := by
  cases h with
  | missing => rw [List.nil_perm.mp hperm]; exact .missing
  | given h => rw [← List.singleton_perm.mp hperm]; exact .given h

theorem SettingsAre.perm (h : SettingsAre round ms s) (hperm : (known ms').Perm (known ms)) :
    SettingsAre round ms' s where
  base := h.base.perm (valuesOf_perm (by simp [fieldNames]) hperm)
  ceiling := h.ceiling.perm (valuesOf_perm (by simp [fieldNames]) hperm)
  deadline := h.deadline.perm (valuesOf_perm (by simp [fieldNames]) hperm)
  jitter := h.jitter.perm (valuesOf_perm (by simp [fieldNames]) hperm)

/-! ## Acceptance -/

/-- No field is given twice, and each one that is given has an acceptable value. -/
structure Acceptable (round : Rounding) (ms : List (Option String × Node)) : Prop where
  once : ∀ name ∈ fieldNames, (valuesOf name ms).length ≤ 1
  millis : ∀ name ∈ [baseName, ceilingName, deadlineName], ∀ v ∈ valuesOf name ms,
    ∃ d, MillisIs round v d
  jitter : ∀ v ∈ valuesOf jitterName ms, ∃ j, JitterIs v j

theorem exists_fieldIs {α : Type} {accepted : Node → α → Prop} {standard : α} {vs : List Node} :
    (∃ a, FieldIs accepted standard vs a) ↔ vs.length ≤ 1 ∧ ∀ v ∈ vs, ∃ a, accepted v a := by
  constructor
  · rintro ⟨a, _ | h⟩
    · exact ⟨Nat.zero_le _, nofun⟩
    · exact ⟨Nat.le_refl _, List.forall_mem_singleton.mpr ⟨a, h⟩⟩
  · rintro ⟨hlength, haccepted⟩
    match vs with
    | [] => exact ⟨standard, .missing⟩
    | [v] =>
      obtain ⟨a, h⟩ := haccepted v List.mem_cons_self
      exact ⟨a, .given h⟩

theorem exists_settingsAre : (∃ s, SettingsAre round ms s) ↔ Acceptable round ms := by
  constructor
  · rintro ⟨s, hbase, hceiling, hdeadline, hjitter⟩
    obtain ⟨hbase, hbase'⟩ := exists_fieldIs.mp ⟨_, hbase⟩
    obtain ⟨hceiling, hceiling'⟩ := exists_fieldIs.mp ⟨_, hceiling⟩
    obtain ⟨hdeadline, hdeadline'⟩ := exists_fieldIs.mp ⟨_, hdeadline⟩
    obtain ⟨hjitter, hjitter'⟩ := exists_fieldIs.mp ⟨_, hjitter⟩
    constructor
    · simpa [fieldNames] using ⟨hbase, hceiling, hdeadline, hjitter⟩
    · simpa using ⟨hbase', hceiling', hdeadline'⟩
    · exact hjitter'
  · rintro ⟨honce, hmillis, hjitter⟩
    simp only [fieldNames, List.forall_mem_cons] at honce hmillis
    obtain ⟨hbase, hceiling, hdeadline, hjitter', -⟩ := honce
    obtain ⟨hbase', hceiling', hdeadline', -⟩ := hmillis
    obtain ⟨base, hbase⟩ := exists_fieldIs.mpr ⟨hbase, hbase'⟩
    obtain ⟨ceiling, hceiling⟩ := exists_fieldIs.mpr ⟨hceiling, hceiling'⟩
    obtain ⟨deadline, hdeadline⟩ := exists_fieldIs.mpr ⟨hdeadline, hdeadline'⟩
    obtain ⟨jitter, hjitter⟩ := exists_fieldIs.mpr ⟨hjitter', hjitter⟩
    exact ⟨⟨base, ceiling, deadline, jitter⟩, hbase, hceiling, hdeadline, hjitter⟩

/-- How the text of an object is read. -/
structure Reading (round : Rounding) (text : String) (ms : List (Option String × Node)) :
    Prop where
  succeeds : (∃ s, readRounded round text = .ok s) ↔ Named ms ∧ Acceptable round ms
  result : ∀ s, readRounded round text = .ok s ↔ Named ms ∧ SettingsAre round ms s
  /-- Blanks and members under other keys make no difference, not even to what is refused. -/
  others : Named ms → ∀ text' ms', IsText text' (.object (.ofList ms')) → Named ms' →
    known ms' = known ms → readRounded round text' = readRounded round text
  /-- What is read in one order is read in any order. -/
  order : ∀ text' ms' s, IsText text' (.object (.ofList ms')) → Named ms' →
    (known ms').Perm (known ms) → readRounded round text = .ok s →
    readRounded round text' = .ok s

/-- Every object is read like that, however numerals are rounded. -/
theorem reading_of_isText (round : Rounding) (h : IsText text (.object (.ofList ms))) :
    Reading round text ms where
  succeeds := by
    rw [← exists_settingsAre, ← exists_and_left]
    exact exists_congr fun s => readRounded_eq_ok h
  result s := readRounded_eq_ok h
  others hnamed text' ms' h' hnamed' hknown := read_eq_of_known h hnamed h' hnamed' hknown
  order text' ms' s h' hnamed' hperm hread :=
    (readRounded_eq_ok h').mpr ⟨hnamed', ((readRounded_eq_ok h).mp hread).2.perm hperm⟩

/-- The text of an object with two fields and, under another key, what could be read neither as a
number nor as a text. -/
def sample : List Char :=
  ['\x7b', '"', 'x', '"', ':', '[', '1', 'e', '9', '9', '9', ',', ' ', '"', '\\', 'u', 'd', '8', '0',
   '0', '"', ']', ',', '\n', '"', 'j', 'i', 't', 't', 'e', 'r', '"', ' ', ':', '\x7b', '"', 'f', 'u',
   'l', 'l', '"', ':', 'n', 'u', 'l', 'l', '\x7d', ',', '"', 'b', 'a', 's', 'e', '_', 'm', 's', '"',
   ':', '0', '.', '2', '5', '\x7d']

def sampleMembers : List (Option String × Node) :=
  [(some "x", .array (.item (.number ⟨false, 1, 0, 999, false⟩) (.item (.string none) .closed))),
   (some "jitter", .object (.member (some "full") .null .closed)),
   (some "base_ms", .number ⟨false, 25, 2, 0, false⟩)]

theorem reading_of_sample : IsText (String.ofList sample) (.object (.ofList sampleMembers)) ∧
    Reading Numeral.nearest (String.ofList sample) sampleMembers := by
  have htokens : Token.ofText sample = [.objectOpen, .string (some "x"), .colon, .arrayOpen,
      .number ⟨false, 1, 0, 999, false⟩, .comma, .string none, .arrayClose, .comma,
      .string (some "jitter"), .colon, .objectOpen, .string (some "full"), .colon, .null,
      .objectClose, .comma, .string (some "base_ms"), .colon, .number ⟨false, 25, 2, 0, false⟩,
      .objectClose] := by decide +kernel
  have h : IsText (String.ofList sample) (.object (.ofList sampleMembers)) := by
    refine isText_iff.mpr ⟨?_, by cbv⟩
    rw [Document.read, String.toList_ofList, htokens]
    rfl
  exact ⟨h, reading_of_isText Numeral.nearest h⟩

/-- The text of an object whose first key is a surrogate that stands alone. -/
def unpaired : List Char :=
  ['\x7b', '"', '\\', 'u', 'd', '8', '0', '0', '"', ':', '1', ',', '"', 'b', 'a', 's', 'e', '_', 'm',
   's', '"', ':', '3', '\x7d']

def unpairedMembers : List (Option String × Node) :=
  [(none, .number ⟨false, 1, 0, 0, true⟩), (some "base_ms", .number ⟨false, 3, 0, 0, true⟩)]

/-- Its fields are acceptable, and still it is not read. -/
theorem unpaired_not_read :
    IsText (String.ofList unpaired) (.object (.ofList unpairedMembers)) ∧
    ∀ round : Rounding, ¬ ((∃ s, readRounded round (String.ofList unpaired) = .ok s) ↔
      Acceptable round unpairedMembers) := by
  have htokens : Token.ofText unpaired = [.objectOpen, .string none, .colon,
      .number ⟨false, 1, 0, 0, true⟩, .comma, .string (some "base_ms"), .colon,
      .number ⟨false, 3, 0, 0, true⟩, .objectClose] := by decide +kernel
  have h : IsText (String.ofList unpaired) (.object (.ofList unpairedMembers)) := by
    refine isText_iff.mpr ⟨?_, by cbv⟩
    rw [Document.read, String.toList_ofList, htokens]
    rfl
  refine ⟨h, fun round hiff => ?_⟩
  have hbase : MillisIs round (.number ⟨false, 3, 0, 0, true⟩) (.ofMillis 3) :=
    .integer ⟨rfl, .inl ⟨rfl, by decide⟩⟩ rfl rfl
  have hacceptable : Acceptable round unpairedMembers :=
    exists_settingsAre.mp ⟨{ standard with base := .ofMillis 3 },
      .given hbase, .missing, .missing, .missing⟩
  obtain ⟨s, hs⟩ := hiff.mpr hacceptable
  exact ((readRounded_eq_ok h).mp hs).1 _ List.mem_cons_self rfl

end Reading

end Reattempt.Settings
