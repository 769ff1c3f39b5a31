import Reattempt.Proofs.Executor.Course

/-!
# What follows a cancellation

From the moment a run is cancelled it begins no attempt and draws no delay. A run
that was paused ends with its next step, whether or not the pause is over; an
attempt in flight may still end, and its answer decides. Cancellation is taken to
last; how long the run is left alone before its next step is the drift's affair.
-/

namespace Reattempt.Executor

variable {ω α ε : Type}

/-- The result of a cancelled run whose attempt in flight has ended. -/
def verdict : Except (AttemptFailure ε) α → Except (CampaignFailure ε) α
  | .ok a => .ok a
  | .error (.fatal e) => .error (.fatal e)
  | .error (.transient _) => .error .canceled

/-- The clock stands still while the run could go on. -/
def Prompt (h : Host ω α ε) (drift : Stage α ε → ω → ω → Prop) : Prop :=
  ∀ st u v, drift st u v → (step h st u).moved = true → h.now v = h.now u

/-- How far a run has come since it was cancelled at `st`, and what it has noted since. -/
inductive Passed (st : Stage α ε) : Stage α ε → Record ω α ε → Prop where
  | still : Passed st st []
  | stopped (hs : st.Checks) : Passed st (.ended (.error .canceled)) []
  | answered {a : Except (AttemptFailure ε) α} {w v : ω} (hs : st = .attempting) :
      Passed st (.ofAttempt a) [⟨.ended a, w, v⟩]
  | dropped {e : ε} {w v : ω} (hs : st = .attempting) :
      Passed st (.ended (.error .canceled)) [⟨.ended (.error (.transient e)), w, v⟩]

theorem checks_ofAttempt {a : Except (AttemptFailure ε) α} (h : (Stage.ofAttempt a).Checks) :
    ∃ e, a = .error (.transient e) := by
  match a with
  | .ok _ => exact False.elim h
  | .error (.fatal _) => exact False.elim h
  | .error (.transient e) => exact ⟨e, rfl⟩

theorem ofAttempt_ne_attempting (a : Except (AttemptFailure ε) α) :
    Stage.ofAttempt a ≠ .attempting := by
  match a with
  | .ok _ | .error (.fatal _) | .error (.transient _) => exact nofun

/-- A cancelled run that moves either stops or has just got the answer of its attempt. -/
theorem passed_move {h : Host ω α ε} {st st' : Stage α ε} {r : Recording ω (Call α ε)}
    {p : Progress (Stage α ε) (Recording ω (Call α ε))} (hm : Move h.recorded st' r p)
    (hc : h.cancelled r.1 = true) (hr : Passed st st' r.2) : Passed st p.state p.world.2 := by
  obtain ⟨u, l⟩ := r
  cases hm with
  | stop hs _ =>
    cases hr with
    | still => exact .stopped hs
    | answered ha =>
      obtain ⟨e, rfl⟩ := checks_ofAttempt hs
      exact .dropped ha
    | stopped | dropped => exact False.elim hs
  | pend hp => exact (poll_recorded_none hp) ▸ hr
  | @answer _ q a hp =>
    obtain ⟨-, hq⟩ := poll_recorded_some hp
    rw [hq]
    generalize hst : (Stage.attempting : Stage α ε) = st' at hr
    cases hr with
    | still => exact .answered hst.symm
    | answered => exact absurd hst.symm (ofAttempt_ne_attempting _)
    | stopped | dropped => cases hst
  | rest => exact hr
  | begin hf | draw hf | wake hf | sleep hf => exact absurd (hc.symm.trans hf) (by decide)

theorem Passed.of_checks {st st' : Stage α ε} {l : Record ω α ε} (hp : Passed st st' l)
    (hs : st.Checks) : l = [] ∧ (st' = st ∨ st' = .ended (.error .canceled)) := by
  cases hp with
  | still => exact ⟨rfl, .inl rfl⟩
  | stopped => exact ⟨rfl, .inr rfl⟩
  | answered ha | dropped ha =>
    subst ha
    exact False.elim hs

theorem cancelled_move {h : Host ω α ε}
    (hpoll : ∀ w, h.cancelled w = true → h.cancelled (h.poll w).2 = true) {st : Stage α ε} {w : ω}
    {p : Progress (Stage α ε) ω} (hm : Move h st w p) (hc : h.cancelled w = true) :
    h.cancelled p.world = true := by
  cases hm with
  | stop | rest => exact hc
  | pend hp | answer hp =>
    have hv := hpoll w hc
    rwa [hp] at hv
  | begin hf | draw hf | wake hf | sleep hf => exact absurd (hc.symm.trans hf) (by decide)

/-- A run has returned `r`, or does so with its next step and nothing else. -/
def Returns (h : Host ω α ε) (st : Stage α ε) (w : ω) (r : Except (CampaignFailure ε) α) : Prop :=
  st = .ended r ∨ step h st w = .moving (.ended r) w

/-- An answer that has ended an attempt of a cancelled run decides its result. -/
theorem returns_ofAttempt {h : Host ω α ε} {w : ω} (hc : h.cancelled w = true)
    (a : Except (AttemptFailure ε) α) : Returns h (.ofAttempt a) w (verdict a) := by
  match a with
  | .ok _ | .error (.fatal _) => exact .inl rfl
  | .error (.transient _) => exact .inr (unlessCancelled_of_cancelled hc _)

/-- What a run has done and left undone since it was cancelled at `st` and `w`. -/
structure Aftermath (h : Host ω α ε) (drift : Stage α ε → ω → ω → Prop) (st : Stage α ε) (w : ω)
    (st' : Stage α ε) (v : ω) (l : Record ω α ε) : Prop where
  /-- No attempt has begun and no delay was drawn. -/
  quiet : ∀ e ∈ l, ∃ a, e.deed = .ended a
  /-- Before an attempt, after one that failed for now and in a pause, the next step ends the
  run, whatever the timers say. -/
  stops : st.Checks → l = [] ∧ Returns h st' v (.error .canceled)
  /-- No time passes before that step if the run is stepped as soon as it can go on. -/
  instant : st.Checks → st' = .ended (.error .canceled) ∨ (Prompt h drift → h.now v = h.now w)
  /-- With an attempt in flight, its answer decides. -/
  inFlight : st = .attempting → st' = .attempting ∧ l = [] ∨
    ∃ a u u', l = [⟨.ended a, u, u'⟩] ∧ Returns h st' v (verdict a)
  /-- So it does if the attempt has ended in the very poll in which the run was cancelled. -/
  answered : ∀ a, st = .ofAttempt a → Returns h st' v (verdict a)

/-- What the run keeps from the moment of its cancellation on. -/
structure Cancelled (h : Host ω α ε) (drift : Stage α ε → ω → ω → Prop) (st : Stage α ε) (w : ω)
    (st' : Stage α ε) (r : Recording ω (Call α ε)) : Prop where
  lasting : h.cancelled r.1 = true
  passed : Passed st st' r.2
  instant : st.Checks → st' = st → Prompt h drift → h.now r.1 = h.now w

theorem cancelled_run {h : Host ω α ε} {drift : Stage α ε → ω → ω → Prop}
    (hpoll : ∀ w, h.cancelled w = true → h.cancelled (h.poll w).2 = true)
    (hlast : ∀ st u v, drift st u v → h.cancelled u = true → h.cancelled v = true)
    {st st' : Stage α ε} {w : ω} {r : Recording ω (Call α ε)} (hc : h.cancelled w = true)
    (run : Run (step h.recorded) (Recording.drift drift) st (w, []) st' r) :
    Cancelled h drift st w st' r := by
  induction run with
  | refl => exact ⟨hc, .still, fun _ _ _ => rfl⟩
  | @step t q _ ih =>
    obtain ⟨hq, hp, -⟩ := ih
    have hpart := congrArg Progress.world (step_part (part_recorded h) t q)
    refine ⟨?_, passed_move (step_move h.recorded t q) hq hp, fun hs ht => ?_⟩
    · have hv := cancelled_move hpoll (step_move h t q.1) hq
      rwa [hpart] at hv
    · -- from a stage that checks, a cancelled run has only one way to go
      exfalso
      have hended : (step h.recorded t q).state = .ended (.error .canceled) := by
        rcases (hp.of_checks hs).2 with rfl | rfl
        · exact congrArg Progress.state (step_of_cancelled (h := h.recorded) hs hq)
        · rfl
      rw [← ht, hended] at hs
      exact hs
  | drift _ hu ih =>
    obtain ⟨hd, hl⟩ := hu
    refine ⟨hlast _ _ _ hd ih.lasting, hl ▸ ih.passed, fun hs ht hprompt => ?_⟩
    subst ht
    rw [hprompt _ _ _ hd (by rw [step_of_cancelled hs ih.lasting]; rfl)]
    exact ih.instant hs rfl hprompt

/-- What follows a cancellation, wherever in its loop it finds the run: no attempt begins, no
delay is drawn, a pause ends at that instant as canceled even if it is over, and an attempt in
flight decides the result unless it fails for now. -/
theorem run_aftermath {h : Host ω α ε} {drift : Stage α ε → ω → ω → Prop}
    (hpoll : ∀ w, h.cancelled w = true → h.cancelled (h.poll w).2 = true)
    (hlast : ∀ st u v, drift st u v → h.cancelled u = true → h.cancelled v = true)
    {st st' : Stage α ε} {w v : ω} {l : Record ω α ε} (hc : h.cancelled w = true)
    (run : Run (step h.recorded) (Recording.drift drift) st (w, []) st' (v, l)) :
    Aftermath h drift st w st' v l := by
  obtain ⟨hv, hp, hi⟩ := cancelled_run hpoll hlast hc run
  refine ⟨?_, fun hs => ?_, fun hs => ?_, ?_, ?_⟩
  · cases hp <;> simp
  · obtain ⟨hl, rfl | rfl⟩ := hp.of_checks hs
    · exact ⟨hl, .inr (step_of_cancelled hs hv)⟩
    · exact ⟨hl, .inl rfl⟩
  · rcases (hp.of_checks hs).2 with ht | ht
    · exact .inr (hi hs ht)
    · exact .inl ht
  · rintro rfl
    cases hp with
    | still => exact .inl ⟨rfl, rfl⟩
    | stopped hs => exact False.elim hs
    | @answered a u u' => exact .inr ⟨a, u, u', rfl, returns_ofAttempt hv a⟩
    | @dropped e u u' => exact .inr ⟨.error (.transient e), u, u', rfl, .inl rfl⟩
  · rintro a rfl
    cases hp with
    | still => exact returns_ofAttempt hv a
    | stopped hs =>
      obtain ⟨e, rfl⟩ := checks_ofAttempt hs
      exact .inl rfl
    | answered ha | dropped ha => exact absurd ha (ofAttempt_ne_attempting a)

/-- Cancellation in the very instant in which a pause is over. -/
theorem run_aftermath_pause_over : ∃ q v l,
    Run (step (Rehearsal.operationHost 0).recorded) (Recording.drift suspended) .ready
      (refusedOnce, []) (.pausing 100) q ∧
    ((Rehearsal.operationHost 0).wake 100 { q.1 with clock := 100, root := true }).isSome ∧
    Run (step (Rehearsal.operationHost 0).recorded) (Recording.drift fun _ u v => v = u)
      (.pausing 100) ({ q.1 with clock := 100, root := true }, []) (.ended (.error .canceled))
      (v, l) ∧
    Aftermath (Rehearsal.operationHost 0) (fun _ u v => v = u) (.pausing 100)
      { q.1 with clock := 100, root := true } (.ended (.error .canceled)) v l := by
  refine ⟨_, _, [], Run.refl.settle (n := 9) rfl, rfl, Run.refl.settle (n := 9) rfl,
    run_aftermath (fun w hw => ?_) (fun _ _ _ hd hu => hd ▸ hu) rfl
      (Run.refl.settle (n := 9) rfl)⟩
  exact Rehearsal.World.isCancelled_poll hw 0 _

end Reattempt.Executor
