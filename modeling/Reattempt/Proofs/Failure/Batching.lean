import Reattempt.Proofs.Failure.History

/-!
# Batches of appends

Whether errors are appended one by one or gathered in an aggregate that is then
appended makes no difference: the members keep their order, and the mark is moved to
the place of the member that it was on. So groups in a history may be opened, however
deep they are nested; only a group that was appended as critical or with a context
stays one.
-/

namespace Reattempt.History

/-! ## One batch -/

section

variable (o : Aggregate) (steps : List Step)

/-- What appending a batch adds, with its own mark and the members as they came. -/
theorem push_run (critical : Bool) (context : Option String) :
    o.push (run steps .empty).toError critical context =
      o.followedBy ⟨(run steps .empty).members.map (Error.wrap context),
        designate (run steps .empty).critical (run steps .empty).members.length critical⟩ := by
  apply o.push_toError
  rw [run_empty]
  exact critical_tally (designated_lt steps)

/-- A batch adds to any aggregate what its steps would have added. -/
theorem append_run : o.append (run steps .empty).toError = run steps o := by
  rw [Aggregate.append, push_run, run_empty, run_eq]
  simp [tally, designate]

theorem members_append : (o.append (run steps .empty).toError).members =
    o.members ++ (run steps .empty).members := by
  rw [append_run, run_eq, run_empty]
  rfl

/-- A context comes before each member of the batch and leaves the mark alone. -/
theorem appendContext_run (context : String) :
    o.appendContext (run steps .empty).toError context =
      { o.append (run steps .empty).toError with
        members := o.members ++ (run steps .empty).members.map (.wrapped context) } := by
  rw [Aggregate.appendContext, Aggregate.append, push_run, push_run]
  rfl

/-- A batch that is appended as critical keeps the mark that it has, and else is marked at
its first member. -/
theorem appendCritical_run :
    o.appendCritical (run steps .empty).toError =
      if (run steps .empty).critical.isSome then o.append (run steps .empty).toError
      else if (run steps .empty).members.isEmpty then o
      else { o.append (run steps .empty).toError with critical := some o.members.length } := by
  rw [Aggregate.appendCritical, Aggregate.append, push_run, push_run]
  generalize run steps .empty = m
  obtain ⟨members, mark⟩ := m
  cases mark with
  | some i => rfl
  | none => cases members <;> simp [Aggregate.followedBy, designate]

end

/-! ## Groups -/

mutual

/-- Steps that come to the same as a plain append of the content. -/
def Content.ungroup : Content → List Step
  | .leaf e h => [.append (.leaf e h) false none]
  | .built steps => ungroup steps

def ungroupAll : List Content → List Step
  | [] => []
  | c :: cs => c.ungroup ++ ungroupAll cs

def Step.ungroup : Step → List Step
  | .append (.leaf e h) critical context => [.append (.leaf e h) critical context]
  | .append (.built steps) critical context =>
    if critical || context.isSome then [.append (.built (ungroup steps)) critical context]
    else ungroup steps
  | .collectOk => []
  | .collectError c => c.ungroup
  | .extend cs => ungroupAll cs

/-- The history with its groups opened: all that is left are appends of leaves, and of
groups that are critical or have a context. -/
def ungroup : List Step → List Step
  | [] => []
  | s :: ss => s.ungroup ++ ungroup ss

end

mutual

theorem Content.run_ungroup (o : Aggregate) : (c : Content) → run c.ungroup o = o.append c.toError
  | .leaf _ _ => rfl
  | .built steps => by
    rw [Content.ungroup, run_ungroup o steps, Content.toError, append_run]

theorem run_ungroupAll (o : Aggregate) : (cs : List Content) →
    run (ungroupAll cs) o = o.extend (toErrors cs)
  | [] => rfl
  | c :: cs => by
    rw [ungroupAll, run_append, c.run_ungroup, run_ungroupAll _ cs]
    rfl

theorem Step.run_ungroup (o : Aggregate) : (s : Step) → run s.ungroup o = s.apply o
  | .append (.leaf e h) critical context => rfl
  | .append (.built steps) critical context => by
    rw [Step.ungroup, apply_append]
    split
    · rw [run, run, apply_append, Content.toError, run_ungroup .empty steps, Content.toError]
    · rename_i hplain
      obtain ⟨rfl, rfl⟩ : critical = false ∧ context = none := by simpa using hplain
      rw [run_ungroup o steps]
      exact (append_run o steps).symm
  | .collectOk => rfl
  | .collectError c => c.run_ungroup o
  | .extend cs => run_ungroupAll o cs

theorem run_ungroup (o : Aggregate) : (ss : List Step) → run (ungroup ss) o = run ss o
  | [] => rfl
  | s :: ss => by
    rw [ungroup, run_append, s.run_ungroup, run_ungroup _ ss]
    rfl

end

/-- Groups within a group are opened with it. -/
example (a b c : Error) (ha : a.isAggregate = false) (hb : b.isAggregate = false)
    (hc : c.isAggregate = false) :
    let inner := [.append (.leaf b hb) true none]
    let outer := [.append (.leaf a ha) false none, .append (.built inner) false none]
    ungroup [.append (.built outer) false none, .append (.leaf c hc) false (some "last")] =
      [.append (.leaf a ha) false none, .append (.leaf b hb) true none,
        .append (.leaf c hc) false (some "last")] :=
  rfl

/-- Appending a batch leaves what its steps would have left; with a context, each of its
members stands under it and the mark is the same; as critical, the mark of the batch or
else its first member counts, and an empty batch changes nothing. So histories that are
the same once their groups are opened leave the same, whatever there was before. -/
theorem run_batched (o : Aggregate) (steps : List Step) (context : String) :
    let m := run steps .empty
    o.append m.toError = run steps o ∧
    (o.append m.toError).members = o.members ++ m.members ∧
    o.appendContext m.toError context =
      { o.append m.toError with members := o.members ++ m.members.map (.wrapped context) } ∧
    o.appendCritical m.toError =
      (if m.critical.isSome then o.append m.toError
      else if m.members.isEmpty then o
      else { o.append m.toError with critical := some o.members.length }) ∧
    run (ungroup steps) o = run steps o :=
  ⟨append_run o steps, members_append o steps, appendContext_run o steps context,
    appendCritical_run o steps, run_ungroup o steps⟩

end Reattempt.History
