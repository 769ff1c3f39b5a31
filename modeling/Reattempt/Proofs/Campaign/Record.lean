import Reattempt.Proofs.Campaign.Part

/-!
# What a campaign does to its surroundings

Recording surroundings write down when an attempt begins, what each poll of it
answers, what is published and which delay is drawn. They change nothing in what
a campaign does. No law of the surroundings is assumed here.
-/

namespace Reattempt.Campaign

open Executor (Stage)

variable {ω ε : Type}

inductive Deed (ε : Type) where
  | began
  | polled (cancelled : Bool) (reply : Reply ε)
  | published (n : Notice)
  /-- Noted when the pause is told of the delay, in the step that draws it. -/
  | drew (d : Duration)

abbrev Record (ω ε : Type) := List (Entry ω (Deed ε))

/-! ## Reading a record -/

def Deed.notice? : Deed ε → Option Notice
  | .published n => some n
  | _ => none

/-- What a campaign has published, in order. -/
def notices (l : Record ω ε) : List Notice := l.filterMap (·.deed.notice?)

@[simp] theorem notices_concat (l : Record ω ε) (x : Entry ω (Deed ε)) :
    notices (l ++ [x]) = notices l ++ x.deed.notice?.toList := by
  cases h : x.deed.notice? <;> simp [notices, h]

def Deed.isBegin : Deed ε → Bool
  | .began => true
  | _ => false

/-- How many attempts were begun. -/
def begun (l : Record ω ε) : Nat := l.countP (·.deed.isBegin)

@[simp] theorem begun_concat (l : Record ω ε) (x : Entry ω (Deed ε)) :
    begun (l ++ [x]) = begun l + if x.deed.isBegin then 1 else 0 := by
  simp [begun, List.countP_append, List.countP_cons]

/-- How a deed changes whether the last attempt has cancelled its own token. -/
def Deed.sever : Bool → Deed ε → Bool
  | _, .began => false
  | s, .polled _ reply => s || reply.cancelsOwn
  | s, _ => s

/-- Whether the last attempt has cancelled the token that it was handed. -/
def severed (l : Record ω ε) : Bool := l.foldl (fun s x => x.deed.sever s) false

@[simp] theorem severed_concat (l : Record ω ε) (x : Entry ω (Deed ε)) :
    severed (l ++ [x]) = x.deed.sever (severed l) := by
  simp [severed, List.foldl_append]

/-! ## Recording surroundings -/

def Surroundings.recorded (env : Surroundings ω ε) : Surroundings (Recording ω (Deed ε)) ε where
  now r := env.now r.1
  wake due r := (env.wake due r.1).map r.goOn
  cancelled r := env.cancelled r.1
  start r := r.note .began (env.start r.1)
  poll c r :=
    let (reply, w) := env.poll c r.1
    (reply, r.note (.polled c reply) w)
  publish n r := r.note (.published n) (env.publish n r.1)
  pause d r := r.note (.drew d) (env.pause d r.1)
  roll r :=
    let (rolls, w) := env.roll r.1
    (rolls, r.goOn w)

/-- A source on the world beside a record. -/
def beside {δ : Type} (src : Backoff.Source ω) : Backoff.Source (Recording ω δ) where
  next rolls r :=
    let (d, w) := src.next rolls r.1
    (d, r.goOn w)
  peek r :=
    let (d, w) := src.peek r.1
    (d, r.goOn w)
  peekSeconds r :=
    let (s, w) := src.peekSeconds r.1
    (s, r.goOn w)

namespace Brief

/-- The same brief for recording surroundings. -/
def recorded (b : Brief ω ε) : Brief (Recording ω (Deed ε)) ε :=
  ⟨b.connector, b.settings, b.shared.map beside⟩

/-! ## What is drawn and looked up beside a record -/

/-- Drawing and looking ahead change nothing of a campaign's memory but its own generator. -/
theorem memory_of_ask {β : Type} {m m' : Memory} {w u : ω} {d : β} {answer : β × Backoff.Fibonacci}
    (h : ask m w answer = (d, m', u)) : m' = { m with fresh := m'.fresh } := by
  obtain ⟨-, rfl, -⟩ := by simpa only [ask, Prod.mk.injEq] using h
  rfl

theorem memory_of_next {b : Brief ω ε} {env : Surroundings ω ε} {m m' : Memory} {w u : ω}
    {d : Duration} (h : b.next env (m, w) = (d, m', u)) : m' = { m with fresh := m'.fresh } := by
  rcases hr : env.roll w with ⟨rolls, v⟩
  cases hs : b.shared with
  | none => exact memory_of_ask (next_of_own hs hr m ▸ h)
  | some src =>
    rw [next_of_shared hs hr] at h
    rw [← (Prod.mk.inj (Prod.mk.inj h).2).1]

theorem memory_of_peek {b : Brief ω ε} {m m' : Memory} {w u : ω} {d : Duration}
    (h : b.peek (m, w) = (d, m', u)) : m' = { m with fresh := m'.fresh } := by
  cases hs : b.shared with
  | none => exact memory_of_ask (peek_of_own hs m w ▸ h)
  | some src =>
    rw [peek_of_shared hs] at h
    rw [← (Prod.mk.inj (Prod.mk.inj h).2).1]

theorem memory_of_peekSeconds {b : Brief ω ε} {m m' : Memory} {w u : ω} {s : UInt64}
    (h : b.peekSeconds (m, w) = (s, m', u)) : m' = { m with fresh := m'.fresh } := by
  cases hs : b.shared with
  | none => exact memory_of_ask (peekSeconds_of_own hs m w ▸ h)
  | some src =>
    rw [peekSeconds_of_shared hs] at h
    rw [← (Prod.mk.inj (Prod.mk.inj h).2).1]

theorem own_recorded (b : Brief ω ε) : b.recorded.own = b.own := rfl

theorem shared_recorded (b : Brief ω ε) : b.recorded.shared = b.shared.map beside := rfl

theorem ask_goOn {β δ : Type} (m : Memory) (r : Recording ω δ) (w : ω)
    (answer : β × Backoff.Fibonacci) : ask m (r.goOn w) answer =
      ((ask m w answer).1, (ask m w answer).2.1, r.goOn (ask m w answer).2.2) := rfl

theorem next_recorded (b : Brief ω ε) (env : Surroundings ω ε) (m : Memory)
    (r : Recording ω (Deed ε)) :
    b.recorded.next env.recorded (m, r) = ((b.next env (m, r.1)).1, (b.next env (m, r.1)).2.1,
      r.goOn (b.next env (m, r.1)).2.2) := by
  rcases hr : env.roll r.1 with ⟨rolls, u⟩
  have hr' : env.recorded.roll r = (rolls, r.goOn u) := by simp [Surroundings.recorded, hr]
  cases hs : b.shared with
  | none =>
    rw [next_of_own hs hr, next_of_own (by rw [shared_recorded, hs]; rfl) hr', own_recorded]
    exact ask_goOn m r u _
  | some src =>
    rw [next_of_shared hs hr, next_of_shared (by rw [shared_recorded, hs]; rfl) hr']
    rfl

theorem peek_recorded (b : Brief ω ε) (m : Memory) (r : Recording ω (Deed ε)) :
    b.recorded.peek (m, r) =
      ((b.peek (m, r.1)).1, (b.peek (m, r.1)).2.1, r.goOn (b.peek (m, r.1)).2.2) := by
  cases hs : b.shared with
  | none =>
    rw [peek_of_own hs, peek_of_own (by rw [shared_recorded, hs]; rfl), own_recorded]
    rfl
  | some src =>
    rw [peek_of_shared hs, peek_of_shared (by rw [shared_recorded, hs]; rfl)]
    rfl

theorem peekSeconds_recorded (b : Brief ω ε) (m : Memory) (r : Recording ω (Deed ε)) :
    b.recorded.peekSeconds (m, r) = ((b.peekSeconds (m, r.1)).1, (b.peekSeconds (m, r.1)).2.1,
      r.goOn (b.peekSeconds (m, r.1)).2.2) := by
  cases hs : b.shared with
  | none =>
    rw [peekSeconds_of_own hs, peekSeconds_of_own (by rw [shared_recorded, hs]; rfl),
      own_recorded]
    exact ask_goOn m r r.1 _
  | some src =>
    rw [peekSeconds_of_shared hs, peekSeconds_of_shared (by rw [shared_recorded, hs]; rfl)]
    rfl

theorem poll_noted {env : Surroundings ω ε} {r : Recording ω (Deed ε)} {c : Bool}
    {reply : Reply ε} {w : ω} (hp : env.poll c r.1 = (reply, w)) :
    env.recorded.poll c r = (reply, r.note (.polled c reply) w) := by
  simp [Surroundings.recorded, hp]

end Brief

theorem wake_recorded (env : Surroundings ω ε) (due : Nat) (r : Recording ω (Deed ε)) :
    env.recorded.wake due r = (env.wake due r.1).map r.goOn := rfl

/-! ## Recording changes nothing -/

theorem part_beside {δ : Type} (src : Backoff.Source ω) :
    Backoff.Source.Part Prod.fst (beside (δ := δ) src) src :=
  ⟨fun _ _ => rfl, fun _ => rfl, fun _ => rfl⟩

/-- Surroundings with a record beside their world act on that world as they did. -/
theorem Surroundings.part_recorded (env : Surroundings ω ε) :
    Surroundings.Part Prod.fst env.recorded env where
  now _ := rfl
  wake due r := by
    rw [wake_recorded, Option.map_map]
    exact Option.map_id'.symm
  cancelled _ := rfl
  start _ := rfl
  poll _ _ := rfl
  publish _ _ := rfl
  pause _ _ := rfl
  roll _ := rfl

theorem Brief.part_recorded (b : Brief ω ε) : Brief.Part Prod.fst b.recorded b where
  connector := rfl
  settings := rfl
  shared := by
    rw [Brief.shared_recorded]
    cases b.shared with
    | none => exact .none
    | some src => exact .some (part_beside src)

/-- Recording changes nothing in what a campaign does. -/
theorem step_recorded (b : Brief ω ε) (env : Surroundings ω ε) (s : State ε)
    (r : Recording ω (Deed ε)) :
    State.step b env s r.1 = (State.step b.recorded env.recorded s r).at Prod.fst :=
  step_part b.part_recorded env.part_recorded s r

/-- Every run of a campaign is the run of one in recording surroundings. -/
theorem exists_record {b : Brief ω ε} {env : Surroundings ω ε} {drift : State ε → ω → ω → Prop}
    {s s' : State ε} {w w' : ω} (run : Run (State.step b env) drift s w s' w') :
    ∃ l, Run (State.step b.recorded env.recorded) (Recording.drift drift) s (w, []) s' (w', l) :=
  Recording.exists_run (step_recorded b env) (fun _ _ _ l hd => ⟨l, hd, rfl⟩) run []

/-! ## Earlier records -/

/-- The same world with an earlier record before its own. -/
def after {δ : Type} (l : List (Entry ω δ)) (r : Recording ω δ) : Recording ω δ := (r.1, l ++ r.2)

theorem after_note {δ : Type} (l : List (Entry ω δ)) (r : Recording ω δ) (d : δ) (w : ω) :
    (after l r).note d w = after l (r.note d w) :=
  congrArg (Prod.mk w) (List.append_assoc l r.2 _)

/-- What was recorded before changes nothing in what a campaign does. -/
theorem Surroundings.part_after (env : Surroundings ω ε) (l : Record ω ε) :
    Surroundings.Part (after l) env.recorded env.recorded where
  now _ := rfl
  wake due r := by
    rw [wake_recorded, wake_recorded, Option.map_map]
    rfl
  cancelled _ := rfl
  start r := after_note l r _ _
  poll c r := congrArg (Prod.mk (env.poll c r.1).1) (after_note l r _ _)
  publish _ r := after_note l r _ _
  pause _ r := after_note l r _ _
  roll _ := rfl

theorem Brief.part_after (b : Brief ω ε) (l : Record ω ε) :
    Brief.Part (after l) b.recorded b.recorded where
  connector := rfl
  settings := rfl
  shared := by
    rw [Brief.shared_recorded]
    cases b.shared with
    | none => exact .none
    | some src => exact .some ⟨fun _ _ => rfl, fun _ => rfl, fun _ => rfl⟩

/-- A run that begins with an earlier record adds to it what it would have recorded alone. -/
theorem exists_run_after {b : Brief ω ε} {env : Surroundings ω ε} {drift : State ε → ω → ω → Prop}
    {s s' : State ε} {w : ω} {l₀ : Record ω ε} {r : Recording ω (Deed ε)}
    (run : Run (State.step b.recorded env.recorded) (Recording.drift drift) s (w, l₀) s' r) :
    ∃ l, r.2 = l₀ ++ l ∧
      Run (State.step b.recorded env.recorded) (Recording.drift drift) s (w, []) s' (r.1, l) := by
  induction run with
  | refl => exact ⟨[], (List.append_nil l₀).symm, .refl⟩
  | @step t v _ ih =>
    obtain ⟨l, hl, ih⟩ := ih
    have hstep := step_part (b.part_after l₀) (env.part_after l₀) t (v.1, l)
    rw [show after l₀ (v.1, l) = v from Prod.ext rfl hl.symm] at hstep
    rw [hstep]
    exact ⟨_, rfl, ih.step⟩
  | drift _ hu ih =>
    obtain ⟨l, hl, ih⟩ := ih
    exact ⟨l, hu.2.trans hl, ih.drift ⟨hu.1, rfl⟩⟩

end Reattempt.Campaign
