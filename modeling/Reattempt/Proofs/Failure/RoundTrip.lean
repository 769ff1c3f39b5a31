import Reattempt.Failure.Report
import Reattempt.Proofs.Json.Documents
import Reattempt.Proofs.Json.Written

/-!
# Reports that are written and read

A report is written as an object that has a member for what is there and none
for what is absent or empty. Reading such an object gives the report back: a
critical text that is empty is a member, so it is not taken for an absent one,
and the texts may hold any characters.
-/

namespace Reattempt.Report

open Json

variable {r : Report}

/-! ## The written document -/

/-- A text in a document. -/
def textElement (s : String) : Element := ⟨writeString s, .string (some s)⟩

/-- Texts in a document. -/
def textsElement (ss : List String) : Element :=
  ⟨writeArray (ss.map writeString), .array (.ofList (ss.map fun s => .string (some s)))⟩

/-- The members that a report is written with. -/
def elements (r : Report) : List (String × Element) :=
  r.critical.toList.map (fun s => ("critical", textElement s)) ++
    if r.errors = [] then [] else [("errors", textsElement r.errors)]

/-- What the members of a report are. -/
def members (r : Report) : List (String × Node) := r.elements.map fun f => (f.1, f.2.value)

theorem write_eq (r : Report) :
    r.write = String.ofList (writeObject (r.elements.map fun f => (f.1, f.2.text))) := by
  cases hcritical : r.critical <;> cases herrors : r.errors <;>
    simp [write, elements, hcritical, herrors, textElement, textsElement]

theorem valueText_textElement (s : String) :
    ValueText (textElement s).text (textElement s).value :=
  .string (stringText_writeString s)

theorem valueText_textsElement (ss : List String) :
    ValueText (textsElement ss).text (textsElement ss).value := by
  have helements : ∀ e ∈ ss.map textElement, ValueText e.text e.value :=
    List.forall_mem_map.mpr fun s _ => valueText_textElement s
  have harray := valueText_writeArray helements
  simpa [textsElement, textElement, Function.comp_def] using harray

/-- A report is written as the document of its members. -/
theorem isText_write (r : Report) : IsText r.write (.object (.ofFields r.members)) := by
  have helements : ∀ f ∈ r.elements, ValueText f.2.text f.2.value := by
    intro f hf
    rcases List.mem_append.mp hf with h | h
    · obtain ⟨s, -, rfl⟩ := List.mem_map.mp h
      exact valueText_textElement s
    · split at h
      · cases h
      · rw [List.mem_singleton.mp h]
        exact valueText_textsElement r.errors
  rw [IsText, write_eq, String.toList_ofList]
  exact valueText_writeObject helements

/-! ## Reading it -/

/-- Items that are read one by one are read as the list of them. -/
theorem read_items {α : Type} {reader : Reader α} (node : α → Node)
    (h : ∀ a, reader (node a) = .ok a) (as : List α) :
    (Items.ofList (as.map node)).read reader = .ok as := by
  induction as with
  | nil => rfl
  | cons a as ih =>
    rw [List.map_cons, Items.ofList, Items.read, h a, ih]
    rfl

variable {round : Rounding} {f : Fields}

theorem fill_critical (s : String) (rest : Members) (h : f.critical = none) :
    (Members.member (some "critical") (textElement s).value rest).fill (slots round) f =
      rest.fill (slots round) { f with critical := some (some s) } := by
  have hread : Node.optionalText round (textElement s).value = .ok (some s) := rfl
  simp [Members.fill, Slot.named?, slots, Slot.optional, Slot.fillOnce, h, hread, bind, Except.bind]

theorem fill_errors (ss : List String) (rest : Members) (h : f.errors = none) :
    (Members.member (some "errors") (textsElement ss).value rest).fill (slots round) f =
      rest.fill (slots round) { f with errors := some ss } := by
  have hread : Node.list round (Node.text round) (textsElement ss).value = .ok ss :=
    read_items (fun s => .string (some s)) (fun _ => rfl) ss
  simp [Members.fill, Slot.named?, slots, Slot.optional, Slot.fillOnce, h, hread, bind, Except.bind]

/-- What is left out stays absent or empty. -/
theorem fill_members (round : Rounding) (r : Report) : ∃ f : Fields,
    (Members.ofFields r.members).fill (slots round) ⟨none, none⟩ = .ok f ∧ f.report = r := by
  obtain ⟨critical, errors⟩ := r
  cases critical with
  | none =>
    cases errors with
    | nil => exact ⟨_, rfl, rfl⟩
    | cons s ss => exact ⟨_, fill_errors (s :: ss) .closed rfl, rfl⟩
  | some c =>
    cases errors with
    | nil => exact ⟨_, fill_critical c .closed rfl, rfl⟩
    | cons s ss =>
      exact ⟨_, (fill_critical c _ rfl).trans (fill_errors (s :: ss) .closed rfl), rfl⟩

theorem reader_members (round : Rounding) (r : Report) :
    reader round (.object (.ofFields r.members)) = .ok r := by
  obtain ⟨f, hfill, hreport⟩ := fill_members round r
  rw [reader, Node.record, hfill, ← hreport]
  rfl

/-! ## What comes back -/

/-- What becomes of a report that is written and read. -/
structure RoundTrip (r : Report) : Prop where
  document : IsText r.write (.object (.ofFields r.members))
  /-- A critical text has a member, also if it is empty; none has none. -/
  critical : "critical" ∈ r.members.map Prod.fst ↔ r.critical ≠ none
  errors : "errors" ∈ r.members.map Prod.fst ↔ r.errors ≠ []
  /-- Nothing is lost. -/
  unchanged : read r.write = .ok r

theorem keys_members (r : Report) : r.members.map Prod.fst =
    (if r.critical = none then [] else ["critical"]) ++
      if r.errors = [] then [] else ["errors"] := by
  obtain ⟨critical, errors⟩ := r
  cases critical <;> cases errors <;> rfl

theorem read_write (r : Report) : read r.write = .ok r :=
  ((isText_write r).readText (reader _)).trans (reader_members _ r)

/-- Reports come back as they were, and an aggregate, which is written as its report, comes
back as that report. -/
theorem read_written : (∀ r : Report, RoundTrip r) ∧ ∀ a : Aggregate, read a.write = .ok a.report := by
  refine ⟨fun r => ?_, fun a => read_write a.report⟩
  have hkeys := keys_members r
  constructor
  · exact isText_write r
  · rw [hkeys]
    by_cases h : r.critical = none <;> by_cases h' : r.errors = [] <;> simp [h, h']
  · rw [hkeys]
    by_cases h : r.critical = none <;> by_cases h' : r.errors = [] <;> simp [h, h']
  · exact read_write r

end Reattempt.Report
