import Reattempt.Backoff.Fibonacci
import Reattempt.Proofs.Duration.Millis
import Reattempt.Proofs.Json.Documents
import Reattempt.Proofs.Json.Written
import Reattempt.Settings.Document

/-!
# Settings that are written and read

Nothing is lost between the settings and the document: a value that was written
is read as that value. So settings come back as what their durations come back
as, and a duration that a document cannot carry is the only thing that can go
wrong.
-/

namespace Reattempt.Settings

open Backoff Json Number

/-! ## Durations in a document -/

theorem numberText_writeMillis (d : Duration) : ∃ n : Numeral,
    NumberText (writeMillis d) n ∧ n.value? Numeral.nearest = some d.toMillisValue := by
  by_cases h : d.IsWhole
  · have hword : d.wholeMillis.toUInt64.toNat = d.wholeMillis := UInt64.toNat_ofNat_of_lt' h.2
    refine ⟨⟨false, d.wholeMillis, 0, 0, true⟩, ?_, ?_⟩
    · rw [writeMillis, Duration.toMillisValue_of_isWhole h, Value.write, hword]
      exact Token.numberText_natural _
    · rw [value?_natural _ h.2, Duration.toMillisValue_of_isWhole h]
  · obtain ⟨m, e, m', e', hq⟩ := Duration.exists_written h
    obtain ⟨n, hnumber, hvalue⟩ := numberText_binary hq.holds hq.pos
    have hwritten := (Duration.toMillisValue_of_not_isWhole h).trans
      (congrArg Value.floating hq.quotient)
    refine ⟨n, ?_, hvalue.trans (congrArg some hwritten.symm)⟩
    rw [writeMillis, hwritten]
    exact hnumber

/-- A duration, written and read. -/
def reread (d : Duration) : Except ReadError Duration :=
  (Duration.ofMillisValue d.toMillisValue).mapError .refused

variable {round : Rounding}

theorem readMillis_number {n : Numeral} {v : Value} (h : n.value? round = some v) :
    readMillis round (.number n) = (Duration.ofMillisValue v).mapError .refused := by
  rw [readMillis, h]
  rfl

/-! ## Settings in a document -/

theorem ofLabel?_label (j : Jitter) : Jitter.ofLabel? j.label = some j := by
  cases j <;> decide

theorem readJitter_label (j : Jitter) : readJitter round (.string (some j.label)) = .ok j := by
  rw [readJitter, Node.variant, Node.variant.choose, ofLabel?_label]
  rfl

/-- Settings from what their fields are read as; the first fault decides. -/
def gather (base ceiling deadline : Except ReadError Duration) (jitter : Except ReadError Jitter) :
    Except ReadError Settings := do
  let base ← base
  let ceiling ← ceiling
  let deadline ← deadline
  let jitter ← jitter
  return ⟨base, ceiling, deadline, jitter⟩

/-- The four members are read in their order. -/
theorem reader_members (round : Rounding) (base ceiling deadline jitter : Node) :
    reader round (.object (.member (some baseName) base (.member (some ceilingName) ceiling
        (.member (some deadlineName) deadline (.member (some jitterName) jitter .closed))))) =
      gather (readMillis round base) (readMillis round ceiling) (readMillis round deadline)
        (readJitter round jitter) := by
  simp only [reader, slots, Node.record, Members.fill, Slot.named?, baseName, Fields.slots,
    Slot.optional, ceilingName, deadlineName, jitterName, BEq.rfl, List.find?_cons_of_pos, String.reduceBEq,
    Bool.false_eq_true, not_false_eq_true, List.find?_cons_of_neg, Slot.fillOnce, Fields.empty,
    Option.isSome_none, ↓reduceIte, bind_map_left, gather]
  cases readMillis round base with
  | error _ => rfl
  | ok base =>
  cases readMillis round ceiling with
  | error _ => rfl
  | ok ceiling =>
  cases readMillis round deadline with
  | error _ => rfl
  | ok deadline =>
  cases readJitter round jitter <;> rfl

/-- The members of written settings, the durations as the numerals that they are written as. -/
def elements (s : Settings) (base ceiling deadline : Numeral) : List (String × Element) :=
  [(baseName, ⟨writeMillis s.base, .number base⟩),
    (ceilingName, ⟨writeMillis s.ceiling, .number ceiling⟩),
    (deadlineName, ⟨writeMillis s.deadline, .number deadline⟩),
    (jitterName, ⟨writeString s.jitter.label, .string (some s.jitter.label)⟩)]

/-- Settings are written as the document of an object, with a numeral for each duration. -/
theorem isText_write (s : Settings) : ∃ base ceiling deadline : Numeral,
    base.value? Numeral.nearest = some s.base.toMillisValue ∧
      ceiling.value? Numeral.nearest = some s.ceiling.toMillisValue ∧
      deadline.value? Numeral.nearest = some s.deadline.toMillisValue ∧
      IsText s.write (.object (.ofFields [(baseName, .number base), (ceilingName, .number ceiling),
        (deadlineName, .number deadline), (jitterName, .string (some s.jitter.label))])) := by
  obtain ⟨base, hbase, hbase'⟩ := numberText_writeMillis s.base
  obtain ⟨ceiling, hceiling, hceiling'⟩ := numberText_writeMillis s.ceiling
  obtain ⟨deadline, hdeadline, hdeadline'⟩ := numberText_writeMillis s.deadline
  refine ⟨base, ceiling, deadline, hbase', hceiling', hdeadline', ?_⟩
  have helements : ∀ f ∈ s.elements base ceiling deadline, ValueText f.2.text f.2.value := by
    simp only [elements, List.forall_mem_cons]
    exact ⟨.number hbase, .number hceiling, .number hdeadline,
      .string (stringText_writeString s.jitter.label), List.forall_mem_nil _⟩
  rw [IsText, write, String.toList_ofList]
  exact valueText_writeObject helements

/-- Settings come back as what their durations come back as. -/
theorem read_write (s : Settings) :
    read s.write = gather (reread s.base) (reread s.ceiling) (reread s.deadline) (.ok s.jitter) := by
  obtain ⟨base, ceiling, deadline, hbase, hceiling, hdeadline, htext⟩ := isText_write s
  have hfields := reader_members Numeral.nearest (.number base) (.number ceiling) (.number deadline)
    (.string (some s.jitter.label))
  rw [readMillis_number hbase, readMillis_number hceiling, readMillis_number hdeadline,
    readJitter_label] at hfields
  exact (htext.readText (reader _)).trans hfields

/-! ## What comes back -/

variable {s s' : Settings} {d d' : Duration}

theorem reread_eq_ok : reread d = .ok d' ↔ Duration.ofMillisValue d.toMillisValue = .ok d' := by
  rw [reread]
  cases Duration.ofMillisValue d.toMillisValue <;> simp [Except.mapError]

/-- A duration that was written fails to be read only because it is out of range. -/
theorem reread_eq_error {r : ReadError} (h : reread d = .error r) :
    ∃ x, r = .refused (.millisOutOfRange x) := by
  rw [reread] at h
  rcases Duration.read_eq d with ⟨d', hd⟩ | ⟨x, hx⟩
  · rw [hd] at h
    cases h
  · rw [hx] at h
    exact ⟨x, (Except.error.inj h).symm⟩

theorem gather_eq_ok {base ceiling deadline : Except ReadError Duration} {jitter : Jitter} :
    gather base ceiling deadline (.ok jitter) = .ok s ↔
      base = .ok s.base ∧ ceiling = .ok s.ceiling ∧ deadline = .ok s.deadline ∧
        jitter = s.jitter := by
  obtain ⟨b, c, d, j⟩ := s
  cases base <;> cases ceiling <;> cases deadline <;>
    simp [gather, bind, Except.bind, pure, Except.pure]

theorem gather_eq_error {base ceiling deadline : Except ReadError Duration} {jitter : Jitter}
    {r : ReadError} (h : gather base ceiling deadline (.ok jitter) = .error r) :
    base = .error r ∨ ceiling = .error r ∨ deadline = .error r := by
  cases base <;> cases ceiling <;> cases deadline <;>
    simp_all [gather, bind, Except.bind, pure, Except.pure]

def durations (s : Settings) : List Duration := [s.base, s.ceiling, s.deadline]

/-- What becomes of settings that are written and read. -/
structure RoundTrip (s : Settings) : Prop where
  /-- They are the same exactly if each duration is. -/
  unchanged : read s.write = .ok s ↔ ∀ d ∈ s.durations, d.Survives
  /-- Whole milliseconds come back, and so do fractions below `2 ^ 32` milliseconds. -/
  kept : (∀ d ∈ s.durations, d.IsWhole ∨ d.toNanos < 2 ^ 32 * Duration.nanosPerMilli) →
    read s.write = .ok s
  /-- Fractions come back only if a word holds their nanoseconds. -/
  lost : read s.write = .ok s → ∀ d ∈ s.durations, d.IsWhole ∨ d.toNanos < UInt64.size
  /-- Whatever comes back is near what was written. -/
  near : ∀ s', read s.write = .ok s' → List.Forall₂ Duration.Near s.durations s'.durations ∧
    s'.jitter = s.jitter
  /-- If nothing comes back, some duration was out of range. -/
  faults : ∀ r, read s.write = .error r → ∃ x, r = .refused (.millisOutOfRange x)
  /-- Fractions well above what a word holds are written and then refused. -/
  refused : (∃ d ∈ s.durations, ¬ d.IsWhole ∧ 2 ^ 64 + 2 ^ 14 ≤ d.toNanos) →
    ∃ x, read s.write = .error (.refused (.millisOutOfRange x))

theorem read_write_eq_ok : read s.write = .ok s' ↔
    reread s.base = .ok s'.base ∧ reread s.ceiling = .ok s'.ceiling ∧
      reread s.deadline = .ok s'.deadline ∧ s.jitter = s'.jitter := by
  rw [read_write, gather_eq_ok]

theorem read_write_eq_self : read s.write = .ok s ↔ ∀ d ∈ s.durations, d.Survives := by
  simp [read_write_eq_ok, reread_eq_ok, durations, Duration.survives_iff]

theorem read_write_eq_error {r : ReadError} (h : read s.write = .error r) :
    ∃ x, r = .refused (.millisOutOfRange x) := by
  rw [read_write] at h
  rcases gather_eq_error h with h | h | h <;> exact reread_eq_error h

theorem refused_of_mem (hd : d ∈ s.durations) (hwhole : ¬ d.IsWhole)
    (h : 2 ^ 64 + 2 ^ 14 ≤ d.toNanos) :
    ∃ x, read s.write = .error (.refused (.millisOutOfRange x)) := by
  obtain ⟨x, hx⟩ := Duration.refused_of_le hwhole h
  cases hread : read s.write with
  | error r =>
    obtain ⟨y, rfl⟩ := read_write_eq_error hread
    exact ⟨y, rfl⟩
  | ok s' =>
    obtain ⟨hbase, hceiling, hdeadline, -⟩ := read_write_eq_ok.mp hread
    rw [reread_eq_ok] at hbase hceiling hdeadline
    simp only [durations, List.mem_cons, List.not_mem_nil, or_false] at hd
    rcases hd with rfl | rfl | rfl <;> simp_all

/-- The durations decide alone, each by itself. -/
theorem roundTrip (s : Settings) : RoundTrip s where
  unchanged := read_write_eq_self
  kept h := read_write_eq_self.mpr fun d hd =>
    (h d hd).elim .inl Duration.survives_of_lt
  lost h d hd := by
    by_cases hwhole : d.IsWhole
    · exact .inl hwhole
    · exact .inr (Duration.lt_of_survives (read_write_eq_self.mp h d hd) hwhole)
  near s' h := by
    obtain ⟨hbase, hceiling, hdeadline, hjitter⟩ := read_write_eq_ok.mp h
    rw [reread_eq_ok] at hbase hceiling hdeadline
    exact ⟨.cons (Duration.near_of_read hbase) (.cons (Duration.near_of_read hceiling)
      (.cons (Duration.near_of_read hdeadline) .nil)), hjitter.symm⟩
  faults _ := read_write_eq_error
  refused := by
    rintro ⟨d, hd, hwhole, hle⟩
    exact refused_of_mem hd hwhole hle

/-- Settings come back as far as documents carry durations; what a generator without a ceiling
calls its policy is never read. -/
theorem roundTrip_except_unbounded (s : Settings) (p : Policy) : RoundTrip s ∧
    (p.isUnbounded = true → ∃ x, read (ofPolicy (Fibonacci.ofPolicy p).policy).write =
      .error (.refused (.millisOutOfRange x))) := by
  refine ⟨roundTrip s, fun hp => refused_of_mem ?_ Duration.not_isWhole_longest ?_⟩
  · have hceiling := Policy.ceiling_normalized_of_isUnbounded hp
    simp [durations, ofPolicy, Fibonacci.policy, Fibonacci.ofPolicy, hceiling]
  · rw [Duration.toNanos_longest]
    decide

end Reattempt.Settings
