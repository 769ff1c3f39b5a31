import Reattempt.Proofs.Campaign.Deadline

/-!
# Campaigns and bare runs

A campaign without a deadline goes the way of the executor that runs nothing but
its connector and classifies what that fails with. Its notices, the number of its
attempts and the token that it puts between its caller's and those of its attempts
make no difference, as long as looking ahead leaves the generator alone. Its
listeners may do what they like outside the part of the world that the connector,
the tokens, the generator and the clock are in.
-/

namespace Reattempt.Campaign

open Executor (Stage)

variable {ω υ ε : Type}

/-! ## The bare operation -/

/-- What a run keeps beside the world: a generator of its own, and whether the attempt in flight
has cancelled its own token. -/
structure Handle where
  fresh : Backoff.Fibonacci
  severed : Bool

def Memory.handle (m : Memory) : Handle := ⟨m.fresh, m.severed⟩

namespace Brief

/-- How an attempt has ended, for the executor. -/
def classify (b : Brief ω ε) : Except ε Unit → Except (AttemptFailure ε) Unit :=
  Except.mapError (AttemptFailure.classify b.connector.retryable)

/-- Lets the connector go on, whose token is a child of the caller's. -/
def connect (b : Brief ω ε) (env : Surroundings ω ε) :
    Handle × ω → Option (Except (AttemptFailure ε) Unit) × Handle × ω
  | (h, w) =>
    let (reply, w) := env.poll (env.cancelled w || h.severed) w
    (reply.outcome.map b.classify, { h with severed := h.severed || reply.cancelsOwn }, w)

def draw (b : Brief ω ε) (env : Surroundings ω ε) : Handle × ω → Duration × Handle × ω
  | (h, w) =>
    let (rolls, w) := env.roll w
    match b.shared with
    | some src => let (d, w) := src.next rolls w; (d, h, w)
    | none => let answer := b.own.next rolls h.fresh; (answer.1, { h with fresh := answer.2 }, w)

/-- Connecting as an operation of the executor, under the caller's token and with the generator
of the brief. -/
def operation (b : Brief ω ε) (env : Surroundings ω ε) : Executor.Host (Handle × ω) Unit ε where
  now s := env.now s.2
  wake due s := (env.wake due s.2).map fun w => (s.1, w)
  cancelled s := env.cancelled s.2
  start s := ({ s.1 with severed := false }, env.start s.2)
  poll := b.connect env
  next := b.draw env
  pause d s := (s.1, env.pause d s.2)

end Brief

/-- Looking ahead leaves the source as it is. -/
structure ReadOnly (src : Backoff.Source ω) : Prop where
  peek : ∀ w, (src.peek w).2 = w
  peekSeconds : ∀ w, (src.peekSeconds w).2 = w

/-- The same surroundings, where nobody hears what is published. -/
def Surroundings.silent (env : Surroundings ω ε) : Surroundings ω ε :=
  { env with publish := fun _ w => w }

/-! ## One step -/

section Silent

variable {b : Brief ω ε} {env : Surroundings ω ε} {m : Memory} {w v : ω}

theorem readOnly_beside {δ : Type} {src : Backoff.Source ω} (h : ReadOnly src) :
    ReadOnly (beside (δ := δ) src) where
  peek r := Prod.ext (h.peek r.1) rfl
  peekSeconds r := Prod.ext (h.peekSeconds r.1) rfl

namespace Brief

theorem exists_peek (hb : ∀ src ∈ b.shared, ReadOnly src) (m : Memory) (w : ω) :
    ∃ d, b.peek (m, w) = (d, m, w) := by
  cases hs : b.shared with
  | none => exact ⟨_, peek_of_own hs m w⟩
  | some src =>
    refine ⟨(src.peek w).1, ?_⟩
    rw [peek_of_shared hs, (hb src hs).peek]

theorem exists_peekSeconds (hb : ∀ src ∈ b.shared, ReadOnly src) (m : Memory) (w : ω) :
    ∃ s, b.peekSeconds (m, w) = (s, m, w) := by
  cases hs : b.shared with
  | none => exact ⟨_, peekSeconds_of_own hs m w⟩
  | some src =>
    refine ⟨(src.peekSeconds w).1, ?_⟩
    rw [peekSeconds_of_shared hs, (hb src hs).peekSeconds]

theorem announceBackoff_silent (hb : ∀ src ∈ b.shared, ReadOnly src) (e : ε) :
    b.announceBackoff env.silent e (m, w) = (m, w) := by
  cases hc : lost env.silent m w with
  | true => exact announceBackoff_of_lost hc e
  | false =>
    obtain ⟨d, hd⟩ := exists_peek hb m w
    obtain ⟨s, hs⟩ := exists_peekSeconds hb m w
    exact announceBackoff_of_not_lost hc hd hs e

/-- Without listeners the end of an attempt is classified, and nothing else. -/
theorem conclude_silent (hb : ∀ src ∈ b.shared, ReadOnly src) (o : Except ε Unit) :
    b.conclude env.silent (m, w) o = (b.classify o, m, w) := by
  match o with
  | .ok () => rfl
  | .error e =>
    cases he : b.connector.retryable e with
    | false =>
      rw [conclude_of_fatal he, classify, Except.mapError, AttemptFailure.classify, he]
      rfl
    | true =>
      rw [conclude_of_transient he, announceBackoff_silent hb, classify, Except.mapError,
        AttemptFailure.classify, he]
      rfl

/-- The executor does not see what a campaign remembers beyond its handle. -/
def bare (s : Memory × ω) : Handle × ω := (s.1.handle, s.2)

theorem connect_bare (hb : ∀ src ∈ b.shared, ReadOnly src) (hm : m.expired = false) :
    b.connect env (bare (m, w)) =
      ((b.poll env.silent (m, w)).1, bare (b.poll env.silent (m, w)).2) := by
  rcases hp : env.poll (env.cancelled w || m.severed) w with ⟨⟨outcome, own⟩, v⟩
  have hp' : env.silent.poll (cancelled env.silent (m, w) || m.severed) w = (⟨outcome, own⟩, v) := by
    rw [← hp, cancelled, hm, Bool.or_false]
    rfl
  have hconnect : b.connect env (bare (m, w)) =
      (outcome.map b.classify, ⟨m.fresh, m.severed || own⟩, v) := by
    simp [connect, bare, Memory.handle, hp]
  rw [hconnect]
  cases outcome with
  | none => rw [poll_of_pending hp']; rfl
  | some o => rw [poll_of_outcome hp', conclude_silent hb]; rfl

theorem draw_of_own {u : ω} {rolls : Backoff.Rolls} (hs : b.shared = none)
    (hr : env.roll w = (rolls, u)) (h : Handle) : b.draw env (h, w) =
      ((b.own.next rolls h.fresh).1, { h with fresh := (b.own.next rolls h.fresh).2 }, u) := by
  rw [draw]
  rw [hr, hs]

theorem draw_of_shared {u : ω} {rolls : Backoff.Rolls} {src : Backoff.Source ω}
    (hs : b.shared = some src) (hr : env.roll w = (rolls, u)) (h : Handle) :
    b.draw env (h, w) = ((src.next rolls u).1, h, (src.next rolls u).2) := by
  rw [draw]
  rw [hr, hs]

theorem ask_bare {β : Type} (m : Memory) (w : ω) (answer : β × Backoff.Fibonacci) :
    ((ask m w answer).1, bare (ask m w answer).2) =
      (answer.1, { m.handle with fresh := answer.2 }, w) := rfl

theorem draw_bare (env : Surroundings ω ε) (s : Memory × ω) : b.draw env (bare s) =
    ((b.next env.silent s).1, bare (b.next env.silent s).2) := by
  obtain ⟨m, w⟩ := s
  have hbare : bare (m, w) = (m.handle, w) := rfl
  rcases hr : env.roll w with ⟨rolls, v⟩
  cases hs : b.shared with
  | none =>
    have hr' : env.silent.roll w = (rolls, v) := hr
    have hfresh : m.handle.fresh = m.fresh := rfl
    rw [hbare, draw_of_own hs hr, next_of_own hs hr', hfresh]
    exact (ask_bare m v _).symm
  | some src =>
    have hr' : env.silent.roll w = (rolls, v) := hr
    rw [hbare, draw_of_shared hs hr, next_of_shared hs hr']
    rfl

end Brief

end Silent

open Brief (bare connect_bare draw_bare)

section Step

variable {b : Brief ω ε} {env : Surroundings ω ε} {m : Memory} {w : ω}

/-- Before its deadline a campaign without listeners runs the bare operation. -/
theorem step_operation (hb : ∀ src ∈ b.shared, ReadOnly src) (hm : m.expired = false)
    (st : Stage Unit ε) : Executor.step (b.operation env) st (bare (m, w)) =
      (Executor.step (b.host env.silent) st (m, w)).at bare := by
  have hcancelled (c : Bool) (hc : (b.host env.silent).cancelled (m, w) = c) :
      (b.operation env).cancelled (bare (m, w)) = c := by
    rw [← hc]
    show env.cancelled w = (env.cancelled w || m.expired)
    rw [hm, Bool.or_false]
  have hmove := Executor.step_move (b.host env.silent) st (m, w)
  generalize Executor.step (b.host env.silent) st (m, w) = p at hmove ⊢
  cases hmove with
  | stop hs hc => exact Executor.step_of_cancelled hs (hcancelled _ hc)
  | begin hc => exact Executor.step_of_begin (hcancelled _ hc)
  | @pend _ v hp =>
    have hconnect : (b.operation env).poll (bare (m, w)) = (none, bare v) :=
      (connect_bare hb hm).trans (congrArg (fun x => (x.1, bare x.2)) hp)
    exact Executor.step_of_pend hconnect
  | @answer _ v a hp =>
    have hconnect : (b.operation env).poll (bare (m, w)) = (some a, bare v) :=
      (connect_bare hb hm).trans (congrArg (fun x => (x.1, bare x.2)) hp)
    exact Executor.step_of_answer hconnect
  | @draw _ v d hc hn =>
    have hdraw : (b.operation env).next (bare (m, w)) = (d, bare v) :=
      (draw_bare env (m, w)).trans (congrArg (fun x => (x.1, bare x.2)) hn)
    exact Executor.step_of_draw (hcancelled _ hc) hdraw
  | @wake due _ v hc hw =>
    have hwake : (b.operation env).wake due (bare (m, w)) = some (bare v) := by
      obtain ⟨u, hu, rfl⟩ := Option.map_eq_some_iff.mp hw
      exact Option.map_eq_some_iff.mpr ⟨u, hu, rfl⟩
    exact Executor.step_of_wake (hcancelled _ hc) hwake
  | sleep hc hw =>
    have hwake := Option.map_eq_none_iff.mp hw
    exact Executor.step_of_sleep (hcancelled _ hc) (Option.map_eq_none_iff.mpr hwake)
  | rest => rfl

end Step

/-! ## Campaigns without a deadline -/

/-- Where the run inside a campaign stands, or where it has come to an end. -/
def Phase.stage : Phase ε → Stage Unit ε
  | .running st | .expiring st => st
  | .closing x | .finished x => .ended x

/-- No deadline has passed, and a run that has come to an end is known to have done so. -/
def Phase.Plain : Phase ε → Prop
  | .running st => st.result? = none
  | .expiring _ => False
  | .closing _ | .finished _ => True

/-- A campaign that has no deadline. -/
structure State.Plain (s : State ε) : Prop where
  limit : s.limit = none
  expired : s.memory.expired = false
  phase : s.phase.Plain

theorem stage_runAt (s : State ε) (st : Stage Unit ε) : (s.runAt st).phase.stage = st := by
  cases st <;> rfl

theorem plain_runAt (s : State ε) (st : Stage Unit ε) : (s.runAt st).phase.Plain := by
  cases st <;> trivial

section Plain

variable {b : Brief ω ε} {env : Surroundings ω ε} {s : State ε}

theorem expired_act {st : Stage Unit ε} {m : Memory} {r : Recording ω (Deed ε)}
    {p : Progress (Stage Unit ε) (Memory × Recording ω (Deed ε))} (ha : Act b env st m r p) :
    p.world.1.expired = m.expired := by
  cases ha with
  | stop | begin | pend | connect | fail | hush | wake | sleep | rest => rfl
  | announce _ _ _ hd hs =>
    rw [Brief.memory_of_peekSeconds hs, Brief.memory_of_peek hd]
    rfl
  | draw _ hn =>
    rw [Brief.memory_of_next hn]
    rfl

theorem plain_turn {r : Recording ω (Deed ε)} {p : Progress (State ε) (Recording ω (Deed ε))}
    (ht : Turn b env s r p) (hs : s.Plain) : p.state.Plain := by
  refine ⟨(limit_turn ht).trans hs.limit, ?_, ?_⟩
  · cases ht with
    | run ha =>
      show (State.runAt _ _).memory.expired = false
      rw [memory_runAt]
      exact (expired_act ha).trans hs.expired
    | stay ha => exact (expired_act ha).trans hs.expired
    | expire => cases hs.limit
    | last | linger | giveUp => exact hs.phase.elim
    | close | rest => exact hs.expired
  · cases ht with
    | run => exact plain_runAt _ _
    | stay => exact hs.phase
    | expire => cases hs.limit
    | last | linger | giveUp => exact hs.phase.elim
    | close | rest => trivial

theorem plain_begin (hb : b.settings.campaignDeadline = none) (now : Nat) :
    (State.begin b now).Plain where
  limit := by
    rw [State.begin, hb]
    rfl
  expired := rfl
  phase := rfl

theorem plain_run {drift : State ε → ω → ω → Prop} {now : Nat} {w : ω}
    {r : Recording ω (Deed ε)} (hb : b.settings.campaignDeadline = none)
    (run : Run (State.step b.recorded env.recorded) (Recording.drift drift) (.begin b now) (w, [])
      s r) : s.Plain := by
  induction run with
  | refl => exact plain_begin hb now
  | step _ ih => exact plain_turn (turn_step b env _ _) ih
  | drift _ _ ih => exact ih

/-- Each step of a campaign without a deadline and without listeners is one of its bare run,
except that the run has come to an end before the campaign has. -/
theorem step_bare (env : Surroundings ω ε) (hb : ∀ src ∈ b.shared, ReadOnly src) (hs : s.Plain)
    (w : ω) :
    (Executor.step (b.operation env) s.phase.stage (bare (s.memory, w))).state =
        (State.step b env.silent s w).state.phase.stage ∧
      (Executor.step (b.operation env) s.phase.stage (bare (s.memory, w))).world =
        bare ((State.step b env.silent s w).state.memory, (State.step b env.silent s w).world) := by
  obtain ⟨m, ph, limit⟩ := s
  obtain rfl : limit = none := hs.limit
  cases ph with
  | running st =>
    have hstep : Executor.step (b.operation env) st (bare (m, w)) = _ :=
      step_operation hb hs.expired st
    rcases hq : Executor.step (b.host env.silent) st (m, w) with ⟨⟨⟩, st', m', v⟩
    · obtain rfl := Executor.eq_of_waiting hq
      rw [Phase.stage, hstep, hq, step_running_of_waiting hq]
      exact ⟨rfl, rfl⟩
    · rw [Phase.stage, hstep, hq, step_running_of_moving hq]
      refine ⟨(stage_runAt _ _).symm, ?_⟩
      rw [Progress.moving, memory_runAt]
      rfl
  | expiring st => exact hs.phase.elim
  | closing x =>
    have hworld : (State.step b env.silent ⟨m, .closing x, none⟩ w).world = w := by
      show (State.closingNotice b m x).elim w _ = w
      cases State.closingNotice b m x <;> rfl
    exact ⟨rfl, congrArg (fun v => bare (m, v)) hworld.symm⟩
  | finished x => exact ⟨rfl, rfl⟩

end Plain

/-! ## Records without notices -/

/-- What a record says of a part of the world, apart from what was published. -/
def unpublished (π : υ → ω) (l : Record υ ε) : Record ω ε :=
  (l.filter (·.deed.notice?.isNone)).map fun x => ⟨x.deed, π x.before, π x.after⟩

def quiet (π : υ → ω) (r : Recording υ (Deed ε)) : Recording ω (Deed ε) :=
  (π r.1, unpublished π r.2)

section Quiet

variable {π : υ → ω} {b' : Brief υ ε} {b : Brief ω ε} {env' : Surroundings υ ε}
  {env : Surroundings ω ε}

theorem unpublished_concat (π : υ → ω) (l : Record υ ε) (x : Entry υ (Deed ε)) :
    unpublished π (l ++ [x]) = unpublished π l ++
      if x.deed.notice?.isNone then [⟨x.deed, π x.before, π x.after⟩] else [] := by
  cases h : x.deed.notice?.isNone <;> simp [unpublished, h]

theorem unpublished_publish (π : υ → ω) (env : Surroundings υ ε) (n : Notice)
    (r : Recording υ (Deed ε)) :
    unpublished π (env.recorded.publish n r).2 = unpublished π r.2 :=
  (unpublished_concat π r.2 _).trans (List.append_nil _)

theorem unpublished_polled {m : Memory} {r q : Recording υ (Deed ε)} {reply : Reply ε}
    (hp : Polled env' m r reply q) : unpublished π q.2 =
      unpublished π r.2 ++ [⟨.polled (lost env' m r.1) reply, π r.1, π q.1⟩] := by
  rw [hp.noted]
  exact unpublished_concat π r.2 _

theorem quiet_note {d : Deed ε} (hd : d.notice? = none) (r : Recording υ (Deed ε)) (v : υ) :
    (quiet π r).note d (π v) = quiet π (r.note d v) := by
  have hx : unpublished π (r.2 ++ [⟨d, r.1, v⟩]) = unpublished π r.2 ++ [⟨d, π r.1, π v⟩] := by
    rw [unpublished_concat, hd]
    rfl
  exact Prod.ext rfl hx.symm

theorem quiet_publish {n : Notice} {r : Recording υ (Deed ε)} {v : υ} (hv : π v = π r.1) :
    quiet π (r.note (.published n) v) = quiet π r := by
  have hx : unpublished π (r.2 ++ [⟨.published n, r.1, v⟩]) = unpublished π r.2 := by
    rw [unpublished_concat]
    exact List.append_nil _
  exact Prod.ext hv hx

/-- What listeners do outside of it is not seen in a part of the world. -/
theorem Surroundings.part_quiet (henv : Surroundings.Part π env' env.silent) :
    Surroundings.Part (quiet π) env'.recorded env.recorded.silent where
  now r := henv.now r.1
  wake due r := by
    show (env.silent.wake due (π r.1)).map _ = ((env'.wake due r.1).map _).map _
    rw [henv.wake, Option.map_map, Option.map_map]
    rfl
  cancelled r := henv.cancelled r.1
  start r := by
    show (quiet π r).note .began (env.silent.start (π r.1)) = _
    rw [henv.start]
    exact quiet_note rfl r _
  poll c r := by
    show ((env.silent.poll c (π r.1)).1, (quiet π r).note (.polled c (env.silent.poll c (π r.1)).1)
      (env.silent.poll c (π r.1)).2) = _
    rw [henv.poll]
    exact congrArg (Prod.mk _) (quiet_note rfl r _)
  publish n r := (quiet_publish (henv.publish n r.1).symm).symm
  pause d r := by
    show (quiet π r).note (.drew d) (env.silent.pause d (π r.1)) = _
    rw [henv.pause]
    exact quiet_note rfl r _
  roll r := by
    show ((env.silent.roll (π r.1)).1, (quiet π r).goOn (env.silent.roll (π r.1)).2) = _
    rw [henv.roll]
    rfl

theorem part_beside_quiet {src' : Backoff.Source υ} {src : Backoff.Source ω}
    (h : Backoff.Source.Part π src' src) :
    Backoff.Source.Part (quiet π) (beside (δ := Deed ε) src') (beside src) where
  next rolls r := by
    show ((src.next rolls (π r.1)).1, (quiet π r).goOn (src.next rolls (π r.1)).2) = _
    rw [h.next]
    rfl
  peek r := by
    show ((src.peek (π r.1)).1, (quiet π r).goOn (src.peek (π r.1)).2) = _
    rw [h.peek]
    rfl
  peekSeconds r := by
    show ((src.peekSeconds (π r.1)).1, (quiet π r).goOn (src.peekSeconds (π r.1)).2) = _
    rw [h.peekSeconds]
    rfl

theorem Brief.part_quiet (hb : Brief.Part π b' b) :
    Brief.Part (quiet π) b'.recorded b.recorded where
  connector := hb.connector
  settings := hb.settings
  shared := by
    rw [Brief.shared_recorded, Brief.shared_recorded]
    rcases hb.shared_cases with ⟨hs', hs⟩ | ⟨src', src, hs', hs, h⟩
    · rw [hs', hs]
      exact .none
    · rw [hs', hs]
      exact .some (part_beside_quiet h)

/-! ## Whole courses -/

/-- The bare run of a brief under a schedule, and its record. -/
def Brief.bareCourse (b : Brief ω ε) (env : Surroundings ω ε) (l : List (Happening ω)) (w : ω) :
    Stage Unit ε × Recording ω (Deed ε) :=
  let p := play (Executor.step (b.recorded.operation env.recorded))
    (l.map fun h => h.beside.inside) (.ready, b.memory.handle, w, [])
  (p.1, p.2.2)

/-- A campaign as its bare run is in a part of its world. -/
def bareAt (π : υ → ω) (p : State ε × Recording υ (Deed ε)) :
    Stage Unit ε × Handle × Recording ω (Deed ε) :=
  (p.1.phase.stage, bare (p.1.memory, quiet π p.2))

theorem play_bare (hb : Brief.Part π b' b) (henv : Surroundings.Part π env' env.silent)
    (hpeek : ∀ src ∈ b.shared, ReadOnly src) {l' : List (Happening υ)} {l : List (Happening ω)}
    (hl : List.Forall₂ (Happening.Part π) l' l) {s : State ε} (hs : s.Plain)
    (r : Recording υ (Deed ε)) :
    play (Executor.step (b.recorded.operation env.recorded)) (l.map fun h => h.beside.inside)
        (bareAt π (s, r)) =
      bareAt π (play (State.step b'.recorded env'.recorded) (l'.map .beside) (s, r)) := by
  have hread : ∀ src ∈ b.recorded.shared, ReadOnly src := by
    rw [Brief.shared_recorded]
    intro src hsrc
    obtain ⟨src₀, hsrc₀, rfl⟩ := Option.map_eq_some_iff.mp hsrc
    exact readOnly_beside (hpeek src₀ hsrc₀)
  induction hl generalizing s r with
  | nil => rfl
  | cons h _ ih =>
    cases h with
    | step =>
      have hstep := step_part (Brief.part_quiet hb) (Surroundings.part_quiet henv) s r
      have hbare := step_bare env.recorded hread hs (quiet π r)
      rw [hstep] at hbare
      have hfirst : Happening.apply (Executor.step (b.recorded.operation env.recorded)) .step
          (bareAt π (s, r)) = bareAt π ((State.step b'.recorded env'.recorded s r).state,
            (State.step b'.recorded env'.recorded s r).world) := Prod.ext hbare.1 hbare.2
      have hplain := plain_turn (turn_step b' env' s r) hs
      have hrest := ih hplain (State.step b'.recorded env'.recorded s r).world
      rw [← hfirst] at hrest
      exact hrest
    | @change f g h =>
      have hfirst : Happening.apply (Executor.step (b.recorded.operation env.recorded))
          (.change fun p : Handle × Recording ω (Deed ε) => (p.1, p.2.goOn (g p.2.1)))
          (bareAt π (s, r)) = bareAt π (s, r.goOn (f r.1)) :=
        congrArg (fun w => (s.phase.stage, s.memory.handle, w, unpublished π r.2)) (h r.1)
      have hrest := ih hs (r.goOn (f r.1))
      rw [← hfirst] at hrest
      exact hrest

end Quiet

section Course

variable {π : υ → ω} {b' : Brief υ ε} {b : Brief ω ε} {env' : Surroundings υ ε}
  {env : Surroundings ω ε} {s : State ε} {r : Recording υ (Deed ε)}

theorem result_runAt (s : State ε) (st : Stage Unit ε) : (s.runAt st).result? = none := by
  cases st <;> rfl

theorem ne_ended_of_result {st : Stage Unit ε} (h : st.result? = none)
    (x : Except (CampaignFailure ε) Unit) : st ≠ .ended x := by
  rintro rfl
  cases h

theorem stage_of_result {x : Except (CampaignFailure ε) Unit} (h : s.result? = some x) :
    s.phase.stage = .ended x := by
  obtain ⟨m, ph, limit⟩ := s
  cases ph with
  | running st | expiring st | closing y => cases h
  | finished y => exact congrArg _ (Option.some.inj h)

/-- When its run has come to an end, a campaign returns with its next step at the latest. -/
theorem result_turn {p : Progress (State υ) (Recording ω (Deed υ))} {b : Brief ω υ}
    {env : Surroundings ω υ} {s : State υ} {r : Recording ω (Deed υ)} (ht : Turn b env s r p)
    (hs : s.Plain) (x : Except (CampaignFailure υ) Unit) :
    s.phase.stage = .ended x ↔ p.state.result? = some x := by
  cases ht with
  | run ha =>
    show _ ↔ (State.runAt _ _).result? = _
    rw [result_runAt]
    exact ⟨fun h => absurd h (ne_ended_of_result hs.phase x), nofun⟩
  | stay ha => exact ⟨fun h => absurd h (ne_ended_of_result hs.phase x), nofun⟩
  | expire => cases hs.limit
  | last | linger | giveUp => exact hs.phase.elim
  | close | rest =>
    show Stage.ended _ = _ ↔ some _ = _
    rw [Stage.ended.injEq, Option.some.injEq]

/-- Apart from notices, the last that is recorded is that the connector failed with `e` for
good. -/
def FailedLast (π : υ → ω) (b' : Brief υ ε) (l : Record υ ε) (e : ε) : Prop :=
  ∃ front c own u u', unpublished π l = front ++ [⟨.polled c ⟨some (.error e), own⟩, u, u'⟩] ∧
    b'.connector.retryable e = false

theorem failedLast_turn {p : Progress (State ε) (Recording υ (Deed ε))} (ht : Turn b' env' s r p)
    (hs : s.Plain)
    (h : ∀ e, s.phase.stage = .ended (.error (.fatal e)) → FailedLast π b' r.2 e) (e : ε)
    (he : p.state.phase.stage = .ended (.error (.fatal e))) : FailedLast π b' p.world.2 e := by
  cases ht with
  | run ha =>
    have hstage := (stage_runAt _ _).symm.trans he
    cases ha with
    | @fail _ _ q e' own hp hr =>
      obtain rfl : e' = e := by cases hstage; rfl
      exact ⟨_, _, _, _, _, (unpublished_publish π env' _ q).trans (unpublished_polled hp), hr⟩
    | stop | begin | connect | hush | announce | draw | wake => cases hstage
  | stay ha => exact absurd he (ne_ended_of_result hs.phase _)
  | expire => cases hs.limit
  | last | linger | giveUp => exact hs.phase.elim
  | @close m x =>
    obtain rfl : x = .error (.fatal e) := by cases he; rfl
    exact h e rfl
  | rest => exact h e he

theorem failedLast_run {drift : State ε → υ → υ → Prop} {now : Nat} {v : υ}
    (hb : b'.settings.campaignDeadline = none)
    (run : Run (State.step b'.recorded env'.recorded) (Recording.drift drift) (.begin b' now)
      (v, []) s r) (e : ε) (he : s.phase.stage = .ended (.error (.fatal e))) :
    FailedLast π b' r.2 e := by
  induction run generalizing e with
  | refl => cases he
  | step run ih => exact failedLast_turn (turn_step b' env' _ _) (plain_run hb run) ih e he
  | drift _ hu ih => exact hu.2 ▸ ih e he

/-- Under matching schedules a campaign without a deadline and its bare run ask the same of their
surroundings in the same worlds, apart from publishing: they begin the same attempts, whose tokens
are in the same state at each poll, and draw the same delays. The campaign has returned what
the run has ended with, or does so with its next step; and an error with which it returns is the
one that the connector failed with. -/
theorem course_bare (hb : Brief.Part π b' b) (henv : Surroundings.Part π env' env.silent)
    (hpeek : ∀ src ∈ b.shared, ReadOnly src) (hdeadline : b'.settings.campaignDeadline = none)
    {l' : List (Happening υ)} {l : List (Happening ω)}
    (hl : List.Forall₂ (Happening.Part π) l' l) (v : υ) :
    (b.bareCourse env l (π v)).2 = quiet π (b'.course env' l' v).2 ∧
    (∀ x, (b.bareCourse env l (π v)).1 = .ended x ↔
      (b'.course env' (l' ++ [.step]) v).1.result? = some x) ∧
    (∀ x, (b'.course env' l' v).1.result? = some x → (b.bareCourse env l (π v)).1 = .ended x) ∧
    ∀ e, (b'.course env' l' v).1.result? = some (.error (.fatal e)) →
      FailedLast π b' (b'.course env' l' v).2.2 e := by
  have run := run_of_course b' env' l' v
  have hplain := plain_run hdeadline run
  have hplay := play_bare hb henv hpeek hl (plain_begin hdeadline (env'.now v)) (v, [])
  have hbegin : bareAt π (State.begin b' (env'.now v), (v, [])) =
      (.ready, b.memory.handle, π v, []) := by
    rw [Brief.memory, hb.settings]
    rfl
  have hbare : b.bareCourse env l (π v) =
      ((b'.course env' l' v).1.phase.stage, quiet π (b'.course env' l' v).2) := by
    rw [hbegin] at hplay
    rw [Brief.bareCourse, hplay]
    rfl
  rw [hbare]
  refine ⟨rfl, fun x => ?_, fun x => stage_of_result, fun e he =>
    failedLast_run hdeadline run e (stage_of_result he)⟩
  rw [course_concat]
  exact result_turn (turn_step b' env' _ _) hplain x

end Course

/-- Surroundings with a listener who keeps what it likes for itself. -/
def Surroundings.heard {κ : Type} (env : Surroundings ω ε) (hear : Notice → κ → κ) :
    Surroundings (ω × κ) ε where
  now p := env.now p.1
  wake due p := (env.wake due p.1).map fun w => (w, p.2)
  cancelled p := env.cancelled p.1
  start p := (env.start p.1, p.2)
  poll c p := ((env.poll c p.1).1, (env.poll c p.1).2, p.2)
  publish n p := (p.1, hear n p.2)
  pause d p := (env.pause d p.1, p.2)
  roll p := ((env.roll p.1).1, (env.roll p.1).2, p.2)

theorem Surroundings.part_heard {κ : Type} (env : Surroundings ω ε) (hear : Notice → κ → κ) :
    Surroundings.Part Prod.fst (env.heard hear) env.silent where
  now _ := rfl
  wake due p := by
    show env.wake due p.1 = ((env.wake due p.1).map _).map _
    rw [Option.map_map]
    exact Option.map_id'.symm
  cancelled _ := rfl
  start _ := rfl
  poll _ _ := rfl
  publish _ _ := rfl
  pause _ _ := rfl
  roll _ := rfl

/-- The campaign of `hesitant` before a listener who keeps all notices. -/
def hesitantHeard : Brief (Rehearsal.World Unit String × List Notice) String :=
  ⟨hesitant.connector, hesitant.settings, none⟩

theorem course_bare_hesitant :
    (hesitantHeard.course ((Rehearsal.surroundings 0).heard fun n ns => ns ++ [n])
      (hesitantly.map .outside) (hesitantWorld, [])).2.1.2.map (·.kind) =
        [.attemptStarting, .backoffScheduled, .attemptStarting, .connected] ∧
    (hesitant.bareCourse (Rehearsal.surroundings 0) hesitantly hesitantWorld).1 =
      .ended (.ok ()) ∧
    (hesitant.bareCourse (Rehearsal.surroundings 0) hesitantly hesitantWorld).2 =
      quiet Prod.fst (hesitantHeard.course
        ((Rehearsal.surroundings 0).heard fun n ns => ns ++ [n]) (hesitantly.map .outside)
        (hesitantWorld, [])).2 := by
  have hb : Brief.Part Prod.fst hesitantHeard hesitant := ⟨rfl, rfl, .none⟩
  obtain ⟨hrecord, -, hresult, -⟩ := course_bare hb
    ((Rehearsal.surroundings 0).part_heard fun n ns => ns ++ [n]) nofun rfl
    (Happening.part_outside hesitantly) (hesitantWorld, [])
  exact ⟨rfl, hresult (.ok ()) rfl, hrecord⟩

end Reattempt.Campaign
