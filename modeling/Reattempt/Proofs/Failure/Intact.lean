import Reattempt.Proofs.Failure.History

/-!
# What holds of every aggregate

However an aggregate came about, its mark is the place of one of its members, and none of
these is an aggregate itself. Appends keep this because they may count on it: the mark and
the members of an appended aggregate are taken over, and only what has members may have a
mark. What is appended is any error that is no aggregate, or an aggregate that came about
in the same way. Nothing more holds of them all, since any aggregate like this can be built.
-/

namespace Reattempt

theorem Error.isAggregate_wrap {e : Error} (he : e.isAggregate = false)
    (context : Option String) : (e.wrap context).isAggregate = false := by
  cases context with
  | none => exact he
  | some c => rfl

namespace Aggregate

/-- The mark is on a member, and no member is an aggregate. -/
structure Intact (a : Aggregate) : Prop where
  critical_lt : ∀ i ∈ a.critical, i < a.members.length
  flat : ∀ e ∈ a.members, e.isAggregate = false

theorem intact_empty : Intact empty := ⟨nofun, nofun⟩

theorem intact_single {e : Error} (he : e.isAggregate = false) : Intact ⟨[e], none⟩ where
  critical_lt := nofun
  flat := by
    intro e' he'
    rw [List.mem_singleton.mp he']
    exact he

namespace Intact

variable {a b : Aggregate}

/-- Without members there is no mark that an append could leave behind. -/
theorem critical_eq_none (h : a.Intact) (ha : a.members = []) : a.critical = none := by
  rw [Option.eq_none_iff_forall_not_mem]
  intro i hi
  simpa [ha] using h.critical_lt i hi

theorem followedBy (ha : a.Intact) (hb : b.Intact) : (a.followedBy b).Intact where
  critical_lt := by
    intro i hi
    have hlength : (a.followedBy b).members.length = a.members.length + b.members.length :=
      List.length_append
    rw [hlength]
    cases hmark : b.critical with
    | none =>
      have hia : i ∈ a.critical := by simpa [Aggregate.followedBy, hmark] using hi
      exact Nat.lt_add_right _ (ha.critical_lt i hia)
    | some j =>
      -- the mark of the later one counts, behind the members of the earlier one
      obtain rfl : a.members.length + j = i := by simpa [Aggregate.followedBy, hmark] using hi
      exact Nat.add_lt_add_left (hb.critical_lt j hmark) _
  flat := by
    intro e he
    rcases List.mem_append.mp he with he | he
    · exact ha.flat e he
    · exact hb.flat e he

/-- What an append adds of an aggregate: each member under the context, and the mark that it
has or is given. -/
theorem under (h : a.Intact) (critical : Bool) (context : Option String) :
    Intact ⟨a.members.map (Error.wrap context),
      History.designate a.critical a.members.length critical⟩ where
  critical_lt := by
    rw [List.length_map]
    exact History.designate_lt h.critical_lt critical
  flat := by
    intro e he
    obtain ⟨m, hm, rfl⟩ := List.mem_map.mp he
    exact Error.isAggregate_wrap (h.flat m hm) context

theorem push_plain (h : a.Intact) {e : Error} (he : e.isAggregate = false) (critical : Bool)
    (context : Option String) : (a.push e critical context).Intact := by
  rw [a.push_of_not_isAggregate he]
  exact h.followedBy ((intact_single he).under critical context)

theorem push (ha : a.Intact) (hb : b.Intact) (critical : Bool) (context : Option String) :
    (a.push b.toError critical context).Intact := by
  rw [a.push_toError b hb.critical_eq_none]
  exact ha.followedBy (hb.under critical context)

/-- The critical member is where the mark is. -/
theorem criticalMember_eq (h : a.Intact) {i : Nat} (hi : a.critical = some i) :
    ∃ hlt : i < a.members.length, a.criticalMember? = some a.members[i] := by
  have hlt := h.critical_lt i hi
  refine ⟨hlt, ?_⟩
  rw [criticalMember?, hi, Option.bind_some, List.getElem?_eq_getElem hlt]

end Intact

/-- The critical text of a report is one of its texts. -/
theorem mem_errors_report {a : Aggregate} {t : String} (ht : a.report.critical = some t) :
    t ∈ a.report.errors := by
  obtain ⟨e, he, rfl⟩ := Option.map_eq_some_iff.mp ht
  obtain ⟨i, -, hi⟩ := Option.bind_eq_some_iff.mp he
  exact List.mem_map_of_mem (List.mem_of_getElem? hi)

end Aggregate

namespace History

/-! ## Histories

An appended aggregate has a history of its own, in which the same holds. -/

mutual

theorem Content.push_intact {a : Aggregate} (ha : a.Intact) (critical : Bool)
    (context : Option String) : (c : Content) → (a.push c.toError critical context).Intact
  | .leaf _ h => ha.push_plain h critical context
  | .built steps => ha.push (run_intact Aggregate.intact_empty steps) critical context

theorem extend_intact {a : Aggregate} (ha : a.Intact) :
    (cs : List Content) → (a.extend (toErrors cs)).Intact
  | [] => ha
  | c :: cs => extend_intact (c.push_intact ha false none) cs

theorem Step.apply_intact {a : Aggregate} (ha : a.Intact) : (s : Step) → (s.apply a).Intact
  | .append c critical context => by
    rw [apply_append]
    exact c.push_intact ha critical context
  | .collectOk => ha
  | .collectError c => c.push_intact ha false none
  | .extend cs => extend_intact ha cs

theorem run_intact {a : Aggregate} (ha : a.Intact) : (ss : List Step) → (run ss a).Intact
  | [] => ha
  | s :: ss => run_intact (s.apply_intact ha) ss

end

/-- Plain appends of errors that are no aggregates. -/
def plainly (es : List Error) (h : ∀ e ∈ es, e.isAggregate = false) : List Step :=
  es.pmap (fun e he => .append (.leaf e he) false none) h

theorem run_plainly (es : List Error) (h : ∀ e ∈ es, e.isAggregate = false) (a : Aggregate) :
    run (plainly es h) a = ⟨a.members ++ es, a.critical⟩ := by
  induction es generalizing a with
  | nil => simp [plainly, run]
  | cons e es ih =>
    have he : e.isAggregate = false := h e List.mem_cons_self
    have hfirst : a.append e = ⟨a.members ++ [e], a.critical⟩ := by
      simp [Aggregate.append, a.push_of_not_isAggregate he, Aggregate.followedBy, designate]
    calc run (plainly (e :: es) h) a
        = run (plainly es fun x hx => h x (List.mem_cons_of_mem e hx)) (a.append e) := rfl
      _ = ⟨a.members ++ e :: es, a.critical⟩ := by simp [ih, hfirst]

/-- The aggregates that can be built are just those with the mark on a member and without an
aggregate among the members. -/
theorem exists_run_iff_intact (a : Aggregate) : (∃ steps, run steps .empty = a) ↔ a.Intact := by
  constructor
  · rintro ⟨steps, rfl⟩
    exact run_intact Aggregate.intact_empty steps
  · intro h
    obtain ⟨members, critical⟩ := a
    cases critical with
    | none => exact ⟨plainly members h.flat, by rw [run_plainly]; rfl⟩
    | some i =>
      have hi : i < members.length := h.critical_lt i rfl
      have hfront := fun e he => h.flat e (List.mem_of_mem_take (i := i) he)
      have hback := fun e he => h.flat e (List.mem_of_mem_drop (i := i + 1) he)
      have hmarked : members[i].isAggregate = false := h.flat _ (List.getElem_mem hi)
      refine ⟨plainly (members.take i) hfront ++
        .append (.leaf members[i] hmarked) true none :: plainly (members.drop (i + 1)) hback, ?_⟩
      rw [run_append, run, run_plainly, run_plainly, apply_append, Content.toError,
        Aggregate.push_of_not_isAggregate _ hmarked]
      simp [Aggregate.followedBy, Aggregate.empty, designate, Nat.min_eq_left (Nat.le_of_lt hi)]

/-- In an aggregate that was built by any operations from any errors, aggregates of any depth
among them, the mark is on a member, which is the one that is shown, told and reported as
critical; what is reported so is among the texts of all; and no member is an aggregate. -/
theorem run_flat_marked (steps : List Step) :
    let a := run steps .empty
    (∀ i, a.critical = some i → ∃ h : i < a.members.length,
      a.criticalMember? = some a.members[i] ∧ a.criticalText = a.members[i].text ∧
        a.report.critical = some a.members[i].text) ∧
    (∀ t, a.report.critical = some t → t ∈ a.report.errors) ∧
    ∀ e ∈ a.members, e.isAggregate = false := by
  intro a
  have ha : a.Intact := run_intact Aggregate.intact_empty steps
  refine ⟨fun i hi => ?_, fun t => Aggregate.mem_errors_report, ha.flat⟩
  obtain ⟨hlt, hmember⟩ := ha.criticalMember_eq hi
  refine ⟨hlt, hmember, ?_, ?_⟩
  · rw [Aggregate.criticalText, hmember, Option.map_some, Option.getD_some]
  · rw [Aggregate.report, hmember, Option.map_some]

end History

end Reattempt
