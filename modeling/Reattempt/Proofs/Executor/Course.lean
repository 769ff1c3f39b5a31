import Mathlib.Data.List.Induction
import Reattempt.Proofs.Executor.Record
import Reattempt.Proofs.Rehearsal.Laws

/-!
# The course of a run

Attempts are made one after another. Each but the last has failed for now, and
was followed by one draw and by a pause of the drawn length. The last one decides
the result. Nothing is assumed of the host but that its timers do not ring early,
and while the run is suspended anything may happen to the world.
-/

namespace Reattempt.Executor

variable {ω α ε : Type}

abbrev Record (ω α ε : Type) := List (Entry ω (Call α ε))

/-- Anything may become of the world while a run is suspended. -/
def suspended : Stage α ε → ω → ω → Prop := fun st _ _ => st.Suspends

def Call.isBegin : Call α ε → Bool
  | .began => true
  | _ => false

def Call.answer? : Call α ε → Option (Except (AttemptFailure ε) α)
  | .ended a => some a
  | _ => none

def Call.delay? : Call α ε → Option Duration
  | .drew d => some d
  | _ => none

/-- How many attempts were begun. -/
def begun (l : Record ω α ε) : Nat := l.countP (·.deed.isBegin)

/-- What the attempts ended with, in order. -/
def answers (l : Record ω α ε) : List (Except (AttemptFailure ε) α) := l.filterMap (·.deed.answer?)

/-- The delays drawn, in order. -/
def delays (l : Record ω α ε) : List Duration := l.filterMap (·.deed.delay?)

@[simp] theorem begun_concat (l : Record ω α ε) (e : Entry ω (Call α ε)) :
    begun (l ++ [e]) = begun l + if e.deed.isBegin then 1 else 0 := by
  simp [begun, List.countP_append, List.countP_cons]

@[simp] theorem answers_concat (l : Record ω α ε) (e : Entry ω (Call α ε)) :
    answers (l ++ [e]) = answers l ++ e.deed.answer?.toList := by
  cases h : e.deed.answer? <;> simp [answers, h]

@[simp] theorem delays_concat (l : Record ω α ε) (e : Entry ω (Call α ε)) :
    delays (l ++ [e]) = delays l ++ e.deed.delay?.toList := by
  cases h : e.deed.delay? <;> simp [delays, h]

def Transient (a : Except (AttemptFailure ε) α) : Prop := ∃ e, a = .error (.transient e)

/-- What may be noted after the last entry, if there is one. -/
inductive Follows (h : Host ω α ε) : Option (Entry ω (Call α ε)) → Entry ω (Call α ε) → Prop where
  | first {w v : ω} : Follows h none ⟨.began, w, v⟩
  | ended {w v w' v' : ω} {a : Except (AttemptFailure ε) α} :
      Follows h (some ⟨.began, w, v⟩) ⟨.ended a, w', v'⟩
  | drew {w v w' v' : ω} {e : ε} {d : Duration} :
      Follows h (some ⟨.ended (.error (.transient e)), w, v⟩) ⟨.drew d, w', v'⟩
  /-- The next attempt begins in the world in which the timer of the pause has rung. -/
  | again {w v w' v' u : ω} {d : Duration} (hu : h.wake (h.now v + d.ceilMillis) u = some w')
      (hd : h.now v + d.ceilMillis ≤ h.now w') :
      Follows h (some ⟨.drew d, w, v⟩) ⟨.began, w', v'⟩

/-- The result that the last entry of a record leaves. -/
inductive Concludes :
    Option (Entry ω (Call α ε)) → Except (CampaignFailure ε) α → Prop where
  | unbegun : Concludes none (.error .canceled)
  | succeeded {w v : ω} {a : α} : Concludes (some ⟨.ended (.ok a), w, v⟩) (.ok a)
  | failed {w v : ω} {e : ε} :
      Concludes (some ⟨.ended (.error (.fatal e)), w, v⟩) (.error (.fatal e))
  | refused {w v : ω} {e : ε} :
      Concludes (some ⟨.ended (.error (.transient e)), w, v⟩) (.error .canceled)
  | paused {w v : ω} {d : Duration} : Concludes (some ⟨.drew d, w, v⟩) (.error .canceled)

/-- How the stage of a run and its world go with the last entry. -/
inductive Stands (h : Host ω α ε) : Stage α ε → ω → Option (Entry ω (Call α ε)) → Prop where
  | unbegun {w : ω} : Stands h .ready w none
  | rung {w u v v' : ω} {d : Duration} (hu : h.wake (h.now v' + d.ceilMillis) u = some w)
      (hd : h.now v' + d.ceilMillis ≤ h.now w) : Stands h .ready w (some ⟨.drew d, v, v'⟩)
  | attempting {w v v' : ω} : Stands h .attempting w (some ⟨.began, v, v'⟩)
  | refused {w v v' : ω} {e : ε} :
      Stands h .refused w (some ⟨.ended (.error (.transient e)), v, v'⟩)
  | pausing {w v v' : ω} {d : Duration} :
      Stands h (.pausing (h.now v' + d.ceilMillis)) w (some ⟨.drew d, v, v'⟩)
  | ended {w : ω} {last : Option (Entry ω (Call α ε))} {r : Except (CampaignFailure ε) α}
      (hr : Concludes last r) : Stands h (.ended r) w last

theorem Stands.of_suspends {h : Host ω α ε} {st : Stage α ε} {w : ω}
    {last : Option (Entry ω (Call α ε))} (hs : Stands h st w last) (hst : st.Suspends) (v : ω) :
    Stands h st v last := by
  cases hs with
  | attempting => exact .attempting
  | pausing => exact .pausing
  | unbegun | rung | refused | ended => exact False.elim hst

theorem Stands.concludes {h : Host ω α ε} {st : Stage α ε} {w : ω}
    {last : Option (Entry ω (Call α ε))} (hs : Stands h st w last) (hst : st.Checks) :
    Concludes last (.error .canceled) := by
  cases hs with
  | unbegun => exact .unbegun
  | rung | pausing => exact .paused
  | refused => exact .refused
  | attempting | ended => exact False.elim hst

theorem stands_ofAttempt (h : Host ω α ε) (a : Except (AttemptFailure ε) α) (w v v' : ω) :
    Stands h (.ofAttempt a) w (some ⟨.ended a, v, v'⟩) := by
  match a with
  | .ok a => exact .ended .succeeded
  | .error (.fatal e) => exact .ended .failed
  | .error (.transient e) => exact .refused

/-- What holds of a run and its record at any moment. -/
structure OnCourse (h : Host ω α ε) (st : Stage α ε) (r : Recording ω (Call α ε)) : Prop where
  follows : Each (fun l e => Follows h l.getLast? e) r.2
  stands : Stands h st r.1 r.2.getLast?

theorem OnCourse.note {h : Host ω α ε} {st st' : Stage α ε} {r : Recording ω (Call α ε)}
    (hr : OnCourse h st r) {c : Call α ε} {w v : ω} (hf : Follows h r.2.getLast? ⟨c, r.1, w⟩)
    (hs : Stands h st' v (some ⟨c, r.1, w⟩)) : OnCourse h st' (v, (r.note c w).2) := by
  refine ⟨each_concat.mpr ⟨hr.follows, hf⟩, ?_⟩
  simpa [Recording.note] using hs

theorem onCourse_move {h : Host ω α ε} (htimer : ∀ due w v, h.wake due w = some v → due ≤ h.now v)
    {st : Stage α ε} {r : Recording ω (Call α ε)}
    {p : Progress (Stage α ε) (Recording ω (Call α ε))} (hm : Move h.recorded st r p)
    (hr : OnCourse h st r) : OnCourse h p.state p.world := by
  have hs := hr.stands
  cases hm with
  | stop hst hc => exact ⟨hr.follows, .ended (hs.concludes hst)⟩
  | begin hc =>
    refine hr.note ?_ .attempting
    generalize r.2.getLast? = last at hs
    cases hs with
    | unbegun => exact .first
    | rung hu hd => exact .again hu hd
  | @pend _ q hp =>
    have hl := poll_recorded_none hp
    exact ⟨hl ▸ hr.follows, hl ▸ hs.of_suspends trivial q.1⟩
  | @answer _ q a hp =>
    obtain ⟨-, hq⟩ := poll_recorded_some hp
    have hf : Follows h r.2.getLast? ⟨.ended a, r.1, q.1⟩ := by
      generalize r.2.getLast? = last at hs
      cases hs with
      | attempting => exact .ended
    rw [hq]
    exact hr.note hf (stands_ofAttempt h a q.1 r.1 q.1)
  | @draw _ q d hc hn =>
    obtain ⟨-, hq⟩ := next_recorded hn
    have hf : Follows h r.2.getLast? ⟨.drew d, r.1, q.1⟩ := by
      generalize r.2.getLast? = last at hs
      cases hs with
      | refused => exact .drew
    rw [hq]
    exact hr.note hf .pausing
  | @wake due _ q hc hw =>
    obtain ⟨hu, hl⟩ := wake_recorded hw
    refine ⟨hl ▸ hr.follows, hl ▸ ?_⟩
    generalize r.2.getLast? = last at hs ⊢
    cases hs with
    | pausing => exact .rung hu (htimer _ _ _ hu)
  | sleep hc hw => exact hr
  | rest => exact hr

/-- Every recorded run stays on course, whatever happens while it is suspended. -/
theorem onCourse_run {h : Host ω α ε} (htimer : ∀ due w v, h.wake due w = some v → due ≤ h.now v)
    {w : ω} {st : Stage α ε} {r : Recording ω (Call α ε)}
    (run : Run (step h.recorded) (Recording.drift suspended) .ready (w, []) st r) :
    OnCourse h st r := by
  induction run with
  | refl => exact ⟨each_nil _, .unbegun⟩
  | step _ ih => exact onCourse_move htimer (step_move h.recorded _ _) ih
  | drift _ hu ih => exact ⟨hu.2 ▸ ih.follows, hu.2 ▸ ih.stands.of_suspends hu.1 _⟩

/-! ## Counting -/

/-- The counts of a record on course, by its last entry. -/
def Tallied (l : Record ω α ε) : Option (Entry ω (Call α ε)) → Prop
  | none => begun l = 0 ∧ answers l = [] ∧ delays l = []
  | some ⟨.began, _, _⟩ =>
    begun l = (answers l).length + 1 ∧ (delays l).length = (answers l).length ∧
      ∀ a ∈ answers l, Transient a
  | some ⟨.ended a, _, _⟩ =>
    ∃ as, answers l = as ++ [a] ∧ begun l = as.length + 1 ∧ (delays l).length = as.length ∧
      ∀ b ∈ as, Transient b
  | some ⟨.drew _, _, _⟩ =>
    begun l = (answers l).length ∧ (delays l).length = (answers l).length ∧
      ∀ a ∈ answers l, Transient a

theorem tallied {h : Host ω α ε} {l : Record ω α ε}
    (hl : Each (fun l e => Follows h l.getLast? e) l) : Tallied l l.getLast? := by
  induction l using List.reverseRecOn with
  | nil => exact ⟨rfl, rfl, rfl⟩
  | append_singleton l x ih =>
    obtain ⟨hl, hx⟩ := each_concat.mp hl
    have ht := ih hl
    -- what the last entry adds is decided by the one before it
    rw [List.getLast?_concat]
    generalize l.getLast? = last at hx ht
    cases hx with
    | first =>
      obtain ⟨hb, ha, hd⟩ := ht
      simp [Tallied, Call.isBegin, Call.answer?, Call.delay?, hb, ha, hd]
    | ended =>
      obtain ⟨hb, hd, ha⟩ := ht
      refine ⟨answers l, ?_, ?_, ?_, ha⟩ <;>
        simp [Call.isBegin, Call.answer?, Call.delay?, hb, hd]
    | @drew _ _ _ _ e =>
      obtain ⟨as, ha, hb, hd, hall⟩ := ht
      refine ⟨?_, ?_, ?_⟩
      · simp [Call.isBegin, Call.answer?, ha, hb]
      · simp [Call.answer?, Call.delay?, ha, hd]
      · intro b hb
        simp only [answers_concat, Call.answer?, Option.toList_none, List.append_nil, ha,
          List.mem_append, List.mem_singleton] at hb
        rcases hb with hb | rfl
        · exact hall b hb
        · exact ⟨e, rfl⟩
    | again =>
      obtain ⟨hb, hd, ha⟩ := ht
      refine ⟨?_, ?_, ?_⟩
      · simp [Call.isBegin, Call.answer?, hb]
      · simp [Call.answer?, Call.delay?, hd]
      · simpa [Call.answer?] using ha

/-- A run that has returned `r` with the record `l`. -/
structure Course (h : Host ω α ε) (l : Record ω α ε) (r : Except (CampaignFailure ε) α) :
    Prop where
  /-- Attempts are made one after another, a delay is drawn only after an attempt that failed
  for now, and after a draw the next attempt waits until the delay is over. -/
  follows : Each (fun l e => Follows h l.getLast? e) l
  /-- Every attempt has ended. -/
  answered : (answers l).length = begun l
  /-- All but the last failed for now. -/
  transient : ∀ a ∈ (answers l).dropLast, Transient a
  /-- One delay was drawn after each but the last, and at most one after that. -/
  draws : begun l ≤ (delays l).length + 1 ∧ (delays l).length ≤ begun l
  ok_iff (a : α) : r = .ok a ↔ (answers l).getLast? = some (.ok a)
  fatal_iff (e : ε) : r = .error (.fatal e) ↔ (answers l).getLast? = some (.error (.fatal e))
  canceled_iff : r = .error .canceled ↔ ∀ a ∈ (answers l).getLast?, Transient a

/-- Where every attempt failed for now, only cancellation can have ended the run. -/
theorem course_canceled {h : Host ω α ε} {l : Record ω α ε}
    (hl : Each (fun l e => Follows h l.getLast? e) l) (hb : (answers l).length = begun l)
    (hd : begun l ≤ (delays l).length + 1 ∧ (delays l).length ≤ begun l)
    (hall : ∀ a ∈ answers l, Transient a) : Course h l (.error .canceled) where
  follows := hl
  answered := hb
  transient a ha := hall a (List.dropLast_subset _ ha)
  draws := hd
  ok_iff a := by
    refine ⟨nofun, fun h => ?_⟩
    obtain ⟨e, he⟩ := hall _ (List.mem_of_getLast? h)
    cases he
  fatal_iff e := by
    refine ⟨nofun, fun h => ?_⟩
    obtain ⟨e, he⟩ := hall _ (List.mem_of_getLast? h)
    cases he
  canceled_iff := ⟨fun _ a ha => hall a (List.mem_of_getLast? ha), fun _ => rfl⟩

theorem Concludes.course {h : Host ω α ε} {l : Record ω α ε} {r : Except (CampaignFailure ε) α}
    (hl : Each (fun l e => Follows h l.getLast? e) l) (hr : Concludes l.getLast? r) :
    Course h l r := by
  have ht := tallied hl
  generalize l.getLast? = last at hr ht
  cases hr with
  | unbegun =>
    obtain ⟨hb, ha, hd⟩ := ht
    exact course_canceled hl (by simp [hb, ha]) (by simp [hb, hd]) (by simp [ha])
  | succeeded | failed =>
    obtain ⟨as, ha, hb, hd, hall⟩ := ht
    constructor <;> simp [hl, hb, ha, hd, Transient, eq_comm]
    exact hall
  | @refused _ _ e =>
    obtain ⟨as, ha, hb, hd, hall⟩ := ht
    refine course_canceled hl (by simp [hb, ha]) (by omega) ?_
    rw [ha]
    intro a hm
    rcases List.mem_append.mp hm with hm | hm
    · exact hall a hm
    · exact ⟨e, List.mem_singleton.mp hm⟩
  | paused =>
    obtain ⟨hb, hd, hall⟩ := ht
    exact course_canceled hl hb.symm (by omega) hall

/-- The whole-run law: a run that returns has made its attempts one after another, with a
draw and a pause between each two, and returns what the last of them decides. -/
theorem run_course {h : Host ω α ε} (htimer : ∀ due w v, h.wake due w = some v → due ≤ h.now v)
    {w v : ω} {l : Record ω α ε} {r : Except (CampaignFailure ε) α}
    (run : Run (step h.recorded) (Recording.drift suspended) .ready (w, []) (.ended r) (v, l)) :
    Course h l r := by
  obtain ⟨hl, hs⟩ := onCourse_run htimer run
  cases hs with
  | ended hr => exact hr.course hl

/-- An operation that is refused once and then answers 7, with pauses of 100 ms. -/
def refusedOnce : Rehearsal.World Nat String :=
  .initial
    [{ name := "op", ownToken := false, audience := .set [], calls := 0, flight := none
       script :=
        { steps := [(1, ⟨.no, none, none, .failed "refused" true⟩)]
          afterwards := ⟨.no, none, none, .ok 7⟩ } }]
    (some ⟨"backoff", ⟨[], .listed ⟨[.ofMillis 100], none, none, 0⟩⟩⟩)

theorem run_course_refusedOnce : ∃ v l,
    Run (step (Rehearsal.operationHost 0).recorded) (Recording.drift suspended) .ready
      (refusedOnce, []) (.ended (.ok 7)) (v, l) ∧
    Course (Rehearsal.operationHost 0) l (.ok 7) := by
  -- while the run is paused, nothing happens but that the clock moves on
  have pause {q} (run : Run (step (Rehearsal.operationHost 0).recorded)
      (Recording.drift suspended) .ready (refusedOnce, []) (.pausing 100) q) :=
    run.drift (u := ({ q.1 with clock := 100 }, q.2)) ⟨trivial, rfl⟩
  have run : Run (step (Rehearsal.operationHost 0).recorded) (Recording.drift suspended) .ready
      (refusedOnce, []) (.ended (.ok 7)) _ :=
    (pause (Run.refl.settle (n := 9) rfl)).settle (n := 9) rfl
  exact ⟨_, _, run, run_course (fun _ _ _ => Rehearsal.World.due_le_clock_of_wake) run⟩

end Reattempt.Executor
