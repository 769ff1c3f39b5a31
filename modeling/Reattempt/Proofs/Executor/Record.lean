import Reattempt.Executor
import Reattempt.Proofs.Run

/-!
# What a run of the executor asks of its host

A recording host writes down when an attempt begins, what it ends with and which
delay is drawn. `Move` says once what a step can do; nothing after it opens the
executor's step again. No law of hosts is assumed here.
-/

namespace Reattempt.Executor

variable {ω α ε : Type}

inductive Call (α ε : Type) where
  | began
  | ended (answer : Except (AttemptFailure ε) α)
  | drew (d : Duration)

/-- A host that keeps a record beside its world. -/
def Host.recorded (h : Host ω α ε) : Host (Recording ω (Call α ε)) α ε where
  now r := h.now r.1
  wake due r := (h.wake due r.1).map r.goOn
  cancelled r := h.cancelled r.1
  start r := r.note .began (h.start r.1)
  poll r :=
    match h.poll r.1 with
    | (none, w) => (none, r.goOn w)
    | (some answer, w) => (some answer, r.note (.ended answer) w)
  next r :=
    let (d, w) := h.next r.1
    (d, r.note (.drew d) w)
  pause d r := r.goOn (h.pause d r.1)

theorem poll_recorded_none {h : Host ω α ε} {r q : Recording ω (Call α ε)}
    (hp : h.recorded.poll r = (none, q)) : q.2 = r.2 := by
  rcases hh : h.poll r.1 with ⟨_ | a, w⟩ <;> simp [Host.recorded, hh] at hp
  rw [← hp]
  rfl

theorem poll_recorded_some {h : Host ω α ε} {r q : Recording ω (Call α ε)}
    {a : Except (AttemptFailure ε) α} (hp : h.recorded.poll r = (some a, q)) :
    h.poll r.1 = (some a, q.1) ∧ q = r.note (.ended a) q.1 := by
  rcases hh : h.poll r.1 with ⟨_ | b, w⟩ <;> simp [Host.recorded, hh] at hp
  obtain ⟨rfl, rfl⟩ := hp
  exact ⟨rfl, rfl⟩

theorem next_recorded {h : Host ω α ε} {r q : Recording ω (Call α ε)} {d : Duration}
    (hn : h.recorded.next r = (d, q)) : h.next r.1 = (d, q.1) ∧ q = r.note (.drew d) q.1 := by
  obtain ⟨rfl, rfl⟩ := Prod.mk.inj hn
  exact ⟨rfl, rfl⟩

theorem wake_recorded {h : Host ω α ε} {r q : Recording ω (Call α ε)} {due : Nat}
    (hw : h.recorded.wake due r = some q) : h.wake due r.1 = some q.1 ∧ q.2 = r.2 := by
  obtain ⟨w, hh, rfl⟩ := Option.map_eq_some_iff.mp hw
  exact ⟨hh, rfl⟩

/-- The stages at which a step first looks whether the run is cancelled. -/
def Stage.Checks : Stage α ε → Prop
  | .ready | .refused | .pausing _ => True
  | .attempting | .ended _ => False

/-- The stages at which a run may be suspended: everything else happens without a pause. -/
def Stage.Suspends : Stage α ε → Prop
  | .attempting | .pausing _ => True
  | _ => False

/-- What a step can do. -/
inductive Move (h : Host ω α ε) : Stage α ε → ω → Progress (Stage α ε) ω → Prop where
  | stop {st : Stage α ε} {w : ω} (hs : st.Checks) (hc : h.cancelled w = true) :
      Move h st w (.moving (.ended (.error .canceled)) w)
  | begin {w : ω} (hc : h.cancelled w = false) : Move h .ready w (.moving .attempting (h.start w))
  | pend {w v : ω} (hp : h.poll w = (none, v)) : Move h .attempting w (.waiting .attempting v)
  | answer {w v : ω} {a : Except (AttemptFailure ε) α} (hp : h.poll w = (some a, v)) :
      Move h .attempting w (.moving (.ofAttempt a) v)
  | draw {w v : ω} {d : Duration} (hc : h.cancelled w = false) (hn : h.next w = (d, v)) :
      Move h .refused w (.moving (.pausing (h.now v + d.ceilMillis)) (h.pause d v))
  | wake {due : Nat} {w v : ω} (hc : h.cancelled w = false) (hw : h.wake due w = some v) :
      Move h (.pausing due) w (.moving .ready v)
  | sleep {due : Nat} {w : ω} (hc : h.cancelled w = false) (hw : h.wake due w = none) :
      Move h (.pausing due) w (.waiting (.pausing due) w)
  | rest {r : Except (CampaignFailure ε) α} {w : ω} :
      Move h (.ended r) w (.waiting (.ended r) w)

theorem unlessCancelled_of_cancelled {h : Host ω α ε} {w : ω} (hc : h.cancelled w = true)
    (go : Progress (Stage α ε) ω) :
    unlessCancelled h w go = .moving (.ended (.error .canceled)) w := by
  simp [unlessCancelled, hc]

theorem unlessCancelled_of_not {h : Host ω α ε} {w : ω} (hc : h.cancelled w = false)
    (go : Progress (Stage α ε) ω) : unlessCancelled h w go = go := by
  simp [unlessCancelled, hc]

/-- A cancelled run ends with its next step, unless an attempt is in flight. -/
theorem step_of_cancelled {h : Host ω α ε} {st : Stage α ε} {w : ω} (hs : st.Checks)
    (hc : h.cancelled w = true) : step h st w = .moving (.ended (.error .canceled)) w := by
  cases st with
  | ready | refused | pausing due => exact unlessCancelled_of_cancelled hc _
  | attempting | ended r => exact False.elim hs

theorem step_of_begin {h : Host ω α ε} {w : ω} (hc : h.cancelled w = false) :
    step h .ready w = .moving .attempting (h.start w) :=
  unlessCancelled_of_not hc _

theorem step_of_draw {h : Host ω α ε} {w v : ω} {d : Duration} (hc : h.cancelled w = false)
    (hn : h.next w = (d, v)) :
    step h .refused w = .moving (.pausing (h.now v + d.ceilMillis)) (h.pause d v) := by
  rw [step, unlessCancelled_of_not hc, pause, hn]

theorem step_of_wake {h : Host ω α ε} {due : Nat} {w v : ω} (hc : h.cancelled w = false)
    (hw : h.wake due w = some v) : step h (.pausing due) w = .moving .ready v := by
  rw [step, unlessCancelled_of_not hc, hw]

theorem step_of_sleep {h : Host ω α ε} {due : Nat} {w : ω} (hc : h.cancelled w = false)
    (hw : h.wake due w = none) : step h (.pausing due) w = .waiting (.pausing due) w := by
  rw [step, unlessCancelled_of_not hc, hw]

theorem step_of_pend {h : Host ω α ε} {w v : ω} (hp : h.poll w = (none, v)) :
    step h .attempting w = .waiting .attempting v := by
  simp [step, hp]

theorem step_of_answer {h : Host ω α ε} {w v : ω} {a : Except (AttemptFailure ε) α}
    (hp : h.poll w = (some a, v)) : step h .attempting w = .moving (.ofAttempt a) v := by
  simp [step, hp]

theorem step_move (h : Host ω α ε) (st : Stage α ε) (w : ω) : Move h st w (step h st w) := by
  by_cases hs : st.Checks
  · cases hc : h.cancelled w with
    | true =>
      rw [step_of_cancelled hs hc]
      exact .stop hs hc
    | false =>
      cases st with
      | ready => exact step_of_begin hc ▸ .begin hc
      | refused => exact step_of_draw hc rfl ▸ .draw hc rfl
      | pausing due =>
        cases hw : h.wake due w with
        | none => exact step_of_sleep hc hw ▸ .sleep hc hw
        | some v => exact step_of_wake hc hw ▸ .wake hc hw
      | attempting | ended r => exact False.elim hs
  · cases st with
    | attempting =>
      rcases hp : h.poll w with ⟨_ | a, v⟩
      · exact step_of_pend hp ▸ .pend hp
      · exact step_of_answer hp ▸ .answer hp
    | ended r => exact .rest
    | ready | refused | pausing due => exact absurd trivial hs

theorem eq_of_waiting {h : Host ω α ε} {st st' : Stage α ε} {w v : ω}
    (hw : step h st w = .waiting st' v) : st' = st := by
  have hm := step_move h st w
  rw [hw] at hm
  cases hm <;> rfl

/-- A host whose world is the part `π` of a larger one, on which `h'` acts the same. -/
structure Host.Part {υ : Type} (π : υ → ω) (h' : Host υ α ε) (h : Host ω α ε) : Prop where
  now : ∀ v, h.now (π v) = h'.now v
  wake : ∀ due v, h.wake due (π v) = (h'.wake due v).map π
  cancelled : ∀ v, h.cancelled (π v) = h'.cancelled v
  start : ∀ v, h.start (π v) = π (h'.start v)
  poll : ∀ v, h.poll (π v) = ((h'.poll v).1, π (h'.poll v).2)
  next : ∀ v, h.next (π v) = ((h'.next v).1, π (h'.next v).2)
  pause : ∀ d v, h.pause d (π v) = π (h'.pause d v)

/-- The executor does the same on a part of the world as on the whole. -/
theorem step_part {υ : Type} {π : υ → ω} {h' : Host υ α ε} {h : Host ω α ε}
    (hp : Host.Part π h' h) (st : Stage α ε) (v : υ) :
    step h st (π v) = (step h' st v).at π := by
  cases st with
  | ready =>
    rw [step, step, unlessCancelled, unlessCancelled, hp.cancelled, hp.start]
    cases h'.cancelled v <;> rfl
  | attempting =>
    rw [step, step, hp.poll]
    rcases h'.poll v with ⟨_ | a, u⟩ <;> rfl
  | refused =>
    rw [step, step, unlessCancelled, unlessCancelled, hp.cancelled, pause, pause, hp.next]
    cases h'.cancelled v with
    | true => rfl
    | false => simp [hp.now, hp.pause, Progress.at, Progress.moving]
  | pausing due =>
    rw [step, step, unlessCancelled, unlessCancelled, hp.cancelled, hp.wake]
    cases h'.cancelled v <;> cases h'.wake due v <;> rfl
  | ended r => rfl

/-- A host with a record beside its world acts on that world as it did. -/
theorem part_recorded (h : Host ω α ε) : Host.Part Prod.fst h.recorded h where
  now _ := rfl
  wake due r := by cases hw : h.wake due r.1 <;> simp [Host.recorded, hw, Recording.goOn]
  cancelled _ := rfl
  start _ := rfl
  poll r := by
    rcases hp : h.poll r.1 with ⟨_ | a, w⟩ <;>
      simp [Host.recorded, hp, Recording.note, Recording.goOn]
  next _ := rfl
  pause _ _ := rfl

/-- Every run of the executor is the run of a recording one. -/
theorem exists_record {h : Host ω α ε} {drift : Stage α ε → ω → ω → Prop} {st st' : Stage α ε}
    {w w' : ω} (run : Run (step h) drift st w st' w') :
    ∃ l, Run (step h.recorded) (Recording.drift drift) st (w, []) st' (w', l) :=
  Recording.exists_run (step_part (part_recorded h)) (fun _ _ _ l hd => ⟨l, hd, rfl⟩) run []

end Reattempt.Executor
