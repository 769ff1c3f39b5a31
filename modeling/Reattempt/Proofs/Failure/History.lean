import Reattempt.Failure.Report

/-!
# Histories of an aggregate

An aggregate as the operations made it. What they append is a plain error or an
aggregate with a history of its own, and so on to any depth. The members are the
plain errors at the leaves of that tree, in order and each with the contexts that it
came through; the critical member is the one that the last append to designate any
has designated. An aggregate inside another error is a leaf like any other.
-/

namespace Reattempt

namespace History

mutual

/-- What is appended: an error that is no aggregate, or an aggregate and how it was built. -/
inductive Content where
  | leaf (e : Error) (h : e.isAggregate = false)
  | built (steps : List Step)

/-- One operation on an aggregate. -/
inductive Step where
  /-- One of the four appends: critical or not, with a context or without. -/
  | append (c : Content) (critical : Bool) (context : Option String)
  /-- A result that is no error is collected. -/
  | collectOk
  /-- A result that is an error is collected. -/
  | collectError (c : Content)
  | extend (cs : List Content)

end

/-! ## What the operations do -/

mutual

def Content.toError : Content → Error
  | .leaf e _ => e
  | .built steps => (run steps .empty).toError

def toErrors : List Content → List Error
  | [] => []
  | c :: cs => c.toError :: toErrors cs

def Step.apply : Step → Aggregate → Aggregate
  | .append c false none, a => a.append c.toError
  | .append c true none, a => a.appendCritical c.toError
  | .append c false (some context), a => a.appendContext c.toError context
  | .append c true (some context), a => a.appendCriticalContext c.toError context
  | .collectOk, a => a.collect (.ok ())
  | .collectError c, a => a.collect (.error c.toError : Except Error Unit)
  | .extend cs, a => a.extend (toErrors cs)

def run : List Step → Aggregate → Aggregate
  | [], a => a
  | s :: ss, a => run ss (s.apply a)

end

theorem apply_append (c : Content) (critical : Bool) (context : Option String) (a : Aggregate) :
    (Step.append c critical context).apply a = a.push c.toError critical context := by
  cases critical <;> cases context <;> rfl

theorem run_append (ss ts : List Step) (a : Aggregate) : run (ss ++ ts) a = run ts (run ss a) := by
  induction ss generalizing a with
  | nil => rfl
  | cons s ss ih => exact ih (s.apply a)

/-! ## What they should come to -/

/-- A plain error with the contexts that it came through, innermost first. -/
structure Leaf where
  error : Error
  contexts : List String

namespace Leaf

def toError (x : Leaf) : Error := x.contexts.foldl (fun e c => .wrapped c e) x.error

/-- Each context stands before what it came around. -/
def text (x : Leaf) : String := x.contexts.foldl (fun t c => c ++ ": " ++ t) x.error.text

/-- The leaf after an append with a context, or without one. -/
def under (context : Option String) (x : Leaf) : Leaf :=
  { x with contexts := x.contexts ++ context.toList }

theorem toError_under (context : Option String) (x : Leaf) :
    (x.under context).toError = x.toError.wrap context := by
  cases context <;> simp [under, toError]

theorem text_toError (x : Leaf) : x.toError.text = x.text := by
  obtain ⟨e, contexts⟩ := x
  simp only [toError, text]
  induction contexts generalizing e with
  | nil => rfl
  | cons c cs ih => exact ih (.wrapped c e)

end Leaf

mutual

def Content.leaves : Content → List Leaf
  | .leaf e _ => [⟨e, []⟩]
  | .built steps => leaves steps

def leavesAll : List Content → List Leaf
  | [] => []
  | c :: cs => c.leaves ++ leavesAll cs

def Step.leaves : Step → List Leaf
  | .append c _ context => c.leaves.map (·.under context)
  | .collectOk => []
  | .collectError c => c.leaves
  | .extend cs => leavesAll cs

def leaves : List Step → List Leaf
  | [] => []
  | s :: ss => s.leaves ++ leaves ss

end

/-- The leaf that an append designates, of so many: the one that is critical in what is
appended, and else the first, if it is appended as critical. -/
def designate (mark : Option Nat) (count : Nat) (critical : Bool) : Option Nat :=
  mark.or (if critical ∧ 0 < count then some 0 else none)

mutual

/-- Which of its leaves is the critical one. -/
def Content.mark : Content → Option Nat
  | .leaf _ _ => none
  | .built steps => (designated steps).getLast?

/-- What appends of these one after another designate. -/
def designatedAll : List Content → List Nat
  | [] => []
  | c :: cs => c.mark.toList ++ (designatedAll cs).map (c.leaves.length + ·)

def Step.designated : Step → List Nat
  | .append c critical _ => (designate c.mark c.leaves.length critical).toList
  | .collectOk => []
  | .collectError c => c.mark.toList
  | .extend cs => designatedAll cs

/-- The leaves that the appends designate, in order and by their positions. -/
def designated : List Step → List Nat
  | [] => []
  | s :: ss => s.designated ++ (designated ss).map (s.leaves.length + ·)

end

/-- The leaf at the mark. -/
def marked (xs : List Leaf) (mark : Option Nat) : Option Leaf := mark.bind fun i => xs[i]?

/-- The aggregate has these leaves for its members and this one marked, and all that can be
seen of it shows them. -/
structure Shows (a : Aggregate) (xs : List Leaf) (mark : Option Nat) : Prop where
  members : a.members = xs.map Leaf.toError
  critical : a.critical = mark
  mark_lt : ∀ i ∈ mark, i < xs.length
  criticalMember : a.criticalMember? = (marked xs mark).map Leaf.toError
  result : a.toResult = if xs.isEmpty then .ok () else .error a
  list : a.list = xs.map Leaf.text
  text : a.text =
    (if xs.length = 1 then "1 error occurred:\n"
      else toString xs.length ++ " errors occurred:\n") ++
      String.join (xs.map fun x => "\t* " ++ x.text ++ "\n") ++ "\n"
  report : a.report = ⟨(marked xs mark).map Leaf.text, xs.map Leaf.text⟩
  criticalText : a.criticalText = ((marked xs mark).map Leaf.text).getD ""

/-! ## Appending to what is there -/

end History

namespace Aggregate

/-- The members of the one and then those of the other, whose mark counts if it has one. -/
def followedBy (a b : Aggregate) : Aggregate where
  members := a.members ++ b.members
  critical := (b.critical.map (a.members.length + ·)).or a.critical

theorem followedBy_empty (a : Aggregate) : a.followedBy .empty = a := by
  simp [followedBy, empty]

theorem empty_followedBy (a : Aggregate) : empty.followedBy a = a := by
  cases a with
  | mk members critical => cases critical <;> simp [followedBy, empty]

theorem followedBy_assoc (a b c : Aggregate) :
    (a.followedBy b).followedBy c = a.followedBy (b.followedBy c) := by
  cases hb : b.critical <;> cases hc : c.critical <;>
    simp [followedBy, hb, hc, Nat.add_assoc]

theorem push_of_not_isAggregate (a : Aggregate) {e : Error} (he : e.isAggregate = false)
    (critical : Bool) (context : Option String) :
    a.push e critical context =
      a.followedBy ⟨[e.wrap context], History.designate none 1 critical⟩ := by
  have hpush : a.push e critical context =
      { members := a.members ++ [e.wrap context]
        critical := if critical then some a.members.length else a.critical } := by
    cases e with
    | aggregate => cases he
    | _ => rfl
  rw [hpush]
  cases critical <;> simp [followedBy, History.designate]

theorem push_toError (a b : Aggregate) (hb : b.members = [] → b.critical = none)
    (critical : Bool) (context : Option String) :
    a.push b.toError critical context =
      a.followedBy ⟨b.members.map (Error.wrap context),
        History.designate b.critical b.members.length critical⟩ := by
  obtain ⟨members, mark⟩ := b
  cases members with
  | nil =>
    -- no mark may be left behind, since the push leaves all as it was
    obtain rfl : mark = none := hb rfl
    simp [toError, push, followedBy, History.designate]
  | cons e es => cases critical <;> simp [toError, push, followedBy, History.designate]

end Aggregate

namespace History

/-- The aggregate with these leaves, of which these are marked in turn. -/
def tally (xs : List Leaf) (marks : List Nat) : Aggregate := ⟨xs.map Leaf.toError, marks.getLast?⟩

theorem tally_append (xs ys : List Leaf) (ms ns : List Nat) :
    tally (xs ++ ys) (ms ++ ns.map (xs.length + ·)) = (tally xs ms).followedBy (tally ys ns) := by
  simp [tally, Aggregate.followedBy, List.getLast?_append, List.getLast?_map]

/-! ### Marks stay within the members -/

theorem designate_lt {mark : Option Nat} {count : Nat} (h : ∀ i ∈ mark, i < count)
    (critical : Bool) : ∀ i ∈ designate mark count critical, i < count := by
  intro i hi
  cases mark with
  | some j => exact h i hi
  | none =>
    simp only [designate, Option.none_or, Option.mem_def, Option.ite_none_right_eq_some] at hi
    exact Option.some.inj hi.2 ▸ hi.1.2

theorem lt_of_mem_append {xs ys : List Leaf} {ms ns : List Nat} (hm : ∀ i ∈ ms, i < xs.length)
    (hn : ∀ i ∈ ns, i < ys.length) :
    ∀ i ∈ ms ++ ns.map (xs.length + ·), i < (xs ++ ys).length := by
  intro i hi
  rw [List.length_append]
  rcases List.mem_append.mp hi with hi | hi
  · exact Nat.lt_add_right _ (hm i hi)
  · obtain ⟨j, hj, rfl⟩ := List.mem_map.mp hi
    exact Nat.add_lt_add_left (hn j hj) _

mutual

theorem Content.mark_lt : (c : Content) → ∀ i ∈ c.mark, i < c.leaves.length
  | .leaf _ _ => nofun
  | .built steps => fun i hi => designated_lt steps i (List.mem_of_getLast? hi)

theorem designatedAll_lt : (cs : List Content) → ∀ i ∈ designatedAll cs, i < (leavesAll cs).length
  | [] => nofun
  | c :: cs =>
    lt_of_mem_append (fun i hi => c.mark_lt i (Option.mem_toList.mp hi)) (designatedAll_lt cs)

theorem Step.designated_lt : (s : Step) → ∀ i ∈ s.designated, i < s.leaves.length
  | .append c critical context => by
    intro i hi
    rw [Step.leaves, List.length_map]
    exact designate_lt c.mark_lt critical i (Option.mem_toList.mp hi)
  | .collectOk => nofun
  | .collectError c => fun i hi => c.mark_lt i (Option.mem_toList.mp hi)
  | .extend cs => designatedAll_lt cs

theorem designated_lt : (ss : List Step) → ∀ i ∈ designated ss, i < (leaves ss).length
  | [] => nofun
  | s :: ss => lt_of_mem_append s.designated_lt (designated_lt ss)

end

/-- Where there are no leaves there is no mark. -/
theorem eq_nil_of_lt {xs : List Leaf} {marks : List Nat} (h : ∀ i ∈ marks, i < xs.length)
    (hxs : xs = []) : marks = [] := by
  rw [List.eq_nil_iff_forall_not_mem]
  intro i hi
  simpa [hxs] using h i hi

theorem critical_tally {xs : List Leaf} {marks : List Nat} (h : ∀ i ∈ marks, i < xs.length)
    (hxs : (tally xs marks).members = []) : (tally xs marks).critical = none := by
  have hmarks : marks = [] := eq_nil_of_lt h (List.map_eq_nil_iff.mp hxs)
  rw [hmarks]
  rfl

/-! ### What each operation adds -/

/-- What an append of this content adds. -/
def Content.adds (c : Content) (critical : Bool) (context : Option String) : Aggregate where
  members := c.leaves.map fun x => x.toError.wrap context
  critical := designate c.mark c.leaves.length critical

theorem Content.adds_eq_tally (c : Content) (critical : Bool) (context : Option String) :
    c.adds critical context = tally (Step.append c critical context).leaves
      (Step.append c critical context).designated := by
  have hmark : (designate c.mark c.leaves.length critical).toList.getLast? =
      designate c.mark c.leaves.length critical := by
    cases designate c.mark c.leaves.length critical <;> rfl
  simp [Content.adds, tally, Step.leaves, Step.designated, hmark, Leaf.toError_under]

/-- Without a context and not critical, as it is. -/
theorem Content.adds_plain (c : Content) : c.adds false none = tally c.leaves c.mark.toList := by
  rw [c.adds_eq_tally, Step.leaves, Step.designated]
  simp [designate, Leaf.under]

/-! Whatever there was before, an operation adds its own tally. The inductions follow the
nesting, over any aggregate, since a nested history starts on an empty one. -/

mutual

theorem Content.push_eq (a : Aggregate) (critical : Bool) (context : Option String) :
    (c : Content) → a.push c.toError critical context = a.followedBy (c.adds critical context)
  | .leaf _ h => a.push_of_not_isAggregate h critical context
  | .built steps => by
    rw [Content.toError, run_eq .empty steps, Aggregate.empty_followedBy,
      a.push_toError _ (critical_tally (designated_lt steps))]
    simp [Content.adds, tally, Content.leaves, Content.mark, Function.comp_def]

theorem extend_eq (a : Aggregate) : (cs : List Content) →
    a.extend (toErrors cs) = a.followedBy (tally (leavesAll cs) (designatedAll cs))
  | [] => a.followedBy_empty.symm
  | c :: cs => by
    calc a.extend (toErrors (c :: cs))
        = (a.push c.toError false none).extend (toErrors cs) := rfl
      _ = (a.followedBy (tally c.leaves c.mark.toList)).extend (toErrors cs) := by
        rw [c.push_eq, c.adds_plain]
      _ = _ := by
        rw [extend_eq _ cs, Aggregate.followedBy_assoc, ← tally_append]
        rfl

theorem Step.apply_eq (a : Aggregate) : (s : Step) →
    s.apply a = a.followedBy (tally s.leaves s.designated)
  | .append c critical context => by
    rw [apply_append, c.push_eq, c.adds_eq_tally]
  | .collectOk => a.followedBy_empty.symm
  | .collectError c => (c.push_eq a false none).trans (congrArg a.followedBy c.adds_plain)
  | .extend cs => extend_eq a cs

theorem run_eq (a : Aggregate) : (ss : List Step) →
    run ss a = a.followedBy (tally (leaves ss) (designated ss))
  | [] => a.followedBy_empty.symm
  | s :: ss => by
    rw [run, run_eq _ ss, s.apply_eq, Aggregate.followedBy_assoc, ← tally_append]
    rfl

end

/-! ## What can be seen of it -/

theorem run_empty (steps : List Step) :
    run steps .empty = tally (leaves steps) (designated steps) := by
  rw [run_eq, Aggregate.empty_followedBy]

theorem shows_tally (xs : List Leaf) {marks : List Nat} (h : ∀ i ∈ marks, i < xs.length) :
    Shows (tally xs marks) xs marks.getLast? := by
  have hcritical : (tally xs marks).criticalMember? =
      (marked xs marks.getLast?).map Leaf.toError := by
    cases hmark : marks.getLast? <;> simp [tally, marked, Aggregate.criticalMember?, hmark]
  have hlist : (tally xs marks).list = xs.map Leaf.text := by
    simp [tally, Aggregate.list, Function.comp_def, Leaf.text_toError]
  have htold : ((marked xs marks.getLast?).map Leaf.toError).map Error.text =
      (marked xs marks.getLast?).map Leaf.text := by
    simp [Function.comp_def, Leaf.text_toError]
  exact
    { members := rfl
      critical := rfl
      mark_lt := fun i hi => h i (List.mem_of_getLast? hi)
      criticalMember := hcritical
      result := by simp [tally, Aggregate.toResult]
      list := hlist
      text := by
        rw [Aggregate.text_eq_listing, hlist]
        simp [Error.listing, Error.headline, Function.comp_def]
      report := by rw [Aggregate.report, hcritical, hlist, htold]
      criticalText := by rw [Aggregate.criticalText, hcritical, htold] }

/-- A step that brings no leaf changes nothing, not even the mark. -/
theorem Step.apply_of_leaves_eq_nil {s : Step} (hs : s.leaves = []) (a : Aggregate) :
    s.apply a = a := by
  rw [s.apply_eq, hs, eq_nil_of_lt s.designated_lt hs]
  exact a.followedBy_empty

theorem run_filter (steps : List Step) (a : Aggregate) :
    run (steps.filter fun s => !s.leaves.isEmpty) a = run steps a := by
  induction steps generalizing a with
  | nil => rfl
  | cons s ss ih =>
    by_cases hs : s.leaves = []
    · rw [List.filter_cons_of_neg (by simp [hs]), run, Step.apply_of_leaves_eq_nil hs]
      exact ih a
    · rw [List.filter_cons_of_pos (by simp [hs])]
      exact ih (s.apply a)

/-- An aggregate shows the leaves of its history, and of those that were designated the last
one as critical; results that are no errors and aggregates without members might as well
not have been appended. -/
theorem shows_run (steps : List Step) :
    Shows (run steps .empty) (leaves steps) (designated steps).getLast? ∧
      ∀ a, run (steps.filter fun s => !s.leaves.isEmpty) a = run steps a := by
  constructor
  · rw [run_empty]
    exact shows_tally (leaves steps) (designated_lt steps)
  · exact run_filter steps

/-- A plain append designates the critical member of what it appends, at its new place. -/
example :
    let inner := [.append (.leaf (.note "a") rfl) false none,
      .append (.leaf (.note "b") rfl) true (some "two")]
    let steps := [.append (.leaf (.note "c") rfl) true none, .append (.built []) true none,
      .append (.built inner) false (some "one"), .collectOk]
    (run steps .empty).critical = some 2 ∧
      (run steps .empty).list = ["c", "one: a", "one: two: b"] := by
  decide +kernel

end History

end Reattempt
