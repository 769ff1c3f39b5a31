import Reattempt.Proofs.Campaign.Record

/-!
# What a step of a campaign can do

`Act` says once what a step of the run inside a campaign does and notes, `Turn`
the same of the campaign around it. Nothing after them opens a step again.
-/

namespace Reattempt.Campaign

open Executor (Stage)

variable {ω ε : Type}

/-- What a campaign remembers when an attempt has begun. -/
def Memory.renewed (m : Memory) : Memory := { m with attempts := m.attempts + 1, severed := false }

/-- What it remembers when the attempt in flight has answered. -/
def Memory.heard (m : Memory) (own : Bool) : Memory := { m with severed := m.severed || own }

/-- Whether the token of the attempt in flight is cancelled. -/
def lost (env : Surroundings ω ε) (m : Memory) (w : ω) : Bool :=
  Brief.cancelled env (m, w) || m.severed

/-- What is published of an attempt that failed for good. -/
def Brief.failure (b : Brief ω ε) (m : Memory) (e : ε) : Notice :=
  (b.notice .connectFailed m).withReason (b.connector.text e)

/-- What is published of one that failed for now. -/
def Brief.announcement (b : Brief ω ε) (m : Memory) (d : Duration) (s : UInt64) (e : ε) : Notice :=
  (((b.notice .backoffScheduled m).withDelay d).withRetryInSeconds s).withReason
    (b.connector.text e)

/-- A poll of the attempt in flight that leaves its record. -/
structure Polled (env : Surroundings ω ε) (m : Memory) (r : Recording ω (Deed ε))
    (reply : Reply ε) (q : Recording ω (Deed ε)) : Prop where
  answer : env.poll (lost env m r.1) r.1 = (reply, q.1)
  noted : q = r.note (.polled (lost env m r.1) reply) q.1

/-- What a step of the run inside a campaign can do. -/
inductive Act (b : Brief ω ε) (env : Surroundings ω ε) :
    Stage Unit ε → Memory → Recording ω (Deed ε) →
      Progress (Stage Unit ε) (Memory × Recording ω (Deed ε)) → Prop where
  | stop {st : Stage Unit ε} {m : Memory} {r : Recording ω (Deed ε)} (hs : st.Checks)
      (hc : Brief.cancelled env (m, r.1) = true) :
      Act b env st m r (.moving (.ended (.error .canceled)) (m, r))
  | begin {m : Memory} {r : Recording ω (Deed ε)} (hc : Brief.cancelled env (m, r.1) = false) :
      Act b env .ready m r (.moving .attempting (m.renewed,
        env.recorded.publish (b.notice .attemptStarting m.renewed) (env.recorded.start r)))
  | pend {m : Memory} {r q : Recording ω (Deed ε)} {own : Bool}
      (hp : Polled env m r ⟨none, own⟩ q) :
      Act b env .attempting m r (.waiting .attempting (m.heard own, q))
  | connect {m : Memory} {r q : Recording ω (Deed ε)} {own : Bool}
      (hp : Polled env m r ⟨some (.ok ()), own⟩ q) :
      Act b env .attempting m r (.moving (.ended (.ok ()))
        (m.heard own, env.recorded.publish (b.notice .connected (m.heard own)) q))
  | fail {m : Memory} {r q : Recording ω (Deed ε)} {e : ε} {own : Bool}
      (hp : Polled env m r ⟨some (.error e), own⟩ q) (he : b.connector.retryable e = false) :
      Act b env .attempting m r (.moving (.ended (.error (.fatal e)))
        (m.heard own, env.recorded.publish (b.failure (m.heard own) e) q))
  /-- An attempt has failed for now, and its token is cancelled: nothing is said. -/
  | hush {m : Memory} {r q : Recording ω (Deed ε)} {e : ε} {own : Bool}
      (hp : Polled env m r ⟨some (.error e), own⟩ q) (he : b.connector.retryable e = true)
      (hc : lost env (m.heard own) q.1 = true) :
      Act b env .attempting m r (.moving .refused (m.heard own, q))
  | announce {m m₁ m₂ : Memory} {r q : Recording ω (Deed ε)} {e : ε} {own : Bool}
      {d : Duration} {s : UInt64} {u₁ u₂ : ω}
      (hp : Polled env m r ⟨some (.error e), own⟩ q) (he : b.connector.retryable e = true)
      (hc : lost env (m.heard own) q.1 = false)
      (hd : b.peek (m.heard own, q.1) = (d, m₁, u₁)) (hs : b.peekSeconds (m₁, u₁) = (s, m₂, u₂)) :
      Act b env .attempting m r (.moving .refused
        (m₂, env.recorded.publish (b.announcement m₂ d s e) (q.goOn u₂)))
  | draw {m m' : Memory} {r : Recording ω (Deed ε)} {d : Duration} {u : ω}
      (hc : Brief.cancelled env (m, r.1) = false) (hn : b.next env (m, r.1) = (d, m', u)) :
      Act b env .refused m r (.moving (.pausing (env.now u + d.ceilMillis))
        (m', env.recorded.pause d (r.goOn u)))
  | wake {due : Nat} {m : Memory} {r : Recording ω (Deed ε)} {u : ω}
      (hc : Brief.cancelled env (m, r.1) = false) (hw : env.wake due r.1 = some u) :
      Act b env (.pausing due) m r (.moving .ready (m, r.goOn u))
  | sleep {due : Nat} {m : Memory} {r : Recording ω (Deed ε)}
      (hc : Brief.cancelled env (m, r.1) = false) (hw : env.wake due r.1 = none) :
      Act b env (.pausing due) m r (.waiting (.pausing due) (m, r))
  | rest {x : Except (CampaignFailure ε) Unit} {m : Memory} {r : Recording ω (Deed ε)} :
      Act b env (.ended x) m r (.waiting (.ended x) (m, r))

theorem polled_recorded (env : Surroundings ω ε) (m : Memory) (r : Recording ω (Deed ε)) :
    ∃ reply q, env.recorded.poll (Brief.cancelled env.recorded (m, r) || m.severed) r =
      (reply, q) ∧ Polled env m r reply q := by
  rcases hp : env.poll (lost env m r.1) r.1 with ⟨reply, w⟩
  exact ⟨reply, _, Brief.poll_noted hp, hp, rfl⟩

namespace Brief

section Poll

variable {b : Brief ω ε} {env : Surroundings ω ε} {m : Memory} {w v : ω} {own : Bool}

theorem poll_of_pending
    (hp : env.poll (cancelled env (m, w) || m.severed) w = (⟨none, own⟩, v)) :
    b.poll env (m, w) = (none, m.heard own, v) := by
  rw [poll]
  simp only [hp]
  rfl

theorem poll_of_outcome {o : Except ε Unit}
    (hp : env.poll (cancelled env (m, w) || m.severed) w = (⟨some o, own⟩, v)) :
    b.poll env (m, w) = (some (b.conclude env (m.heard own, v) o).1,
      (b.conclude env (m.heard own, v) o).2) := by
  rw [poll]
  simp only [hp]
  rfl

theorem conclude_of_fatal {e : ε} (he : b.connector.retryable e = false) :
    b.conclude env (m, w) (.error e) =
      (.error (.fatal e), m, env.publish (b.failure m e) w) := by
  simp [conclude, he, failure, publish]

theorem conclude_of_transient {e : ε} (he : b.connector.retryable e = true) :
    b.conclude env (m, w) (.error e) =
      (.error (.transient e), b.announceBackoff env e (m, w)) := by
  simp [conclude, he]

theorem announceBackoff_of_lost (hc : lost env m w = true) (e : ε) :
    b.announceBackoff env e (m, w) = (m, w) := by
  rw [announceBackoff]
  exact if_pos hc

theorem announceBackoff_of_not_lost {m₁ m₂ : Memory} {d : Duration} {s : UInt64} {u₁ u₂ : ω}
    (hc : lost env m w = false) (hd : b.peek (m, w) = (d, m₁, u₁))
    (hs : b.peekSeconds (m₁, u₁) = (s, m₂, u₂)) (e : ε) :
    b.announceBackoff env e (m, w) = (m₂, env.publish (b.announcement m₂ d s e) u₂) := by
  have hn : ¬ (cancelled env (m, w) || m.severed) = true := by simpa [lost] using hc
  rw [announceBackoff, if_neg hn]
  simp only [hd, hs]
  rfl

end Poll

end Brief

/-- What the run does when it polls the attempt in flight. -/
theorem act_poll (b : Brief ω ε) (env : Surroundings ω ε) (m : Memory)
    (r : Recording ω (Deed ε)) :
    Act b env .attempting m r
      (Executor.step (b.recorded.host env.recorded) .attempting (m, r)) := by
  obtain ⟨⟨outcome, own⟩, q, hq, hp⟩ := polled_recorded env m r
  match outcome with
  | none =>
    rw [Executor.step_of_pend (Brief.poll_of_pending hq)]
    exact .pend hp
  | some (.ok ()) =>
    rw [Executor.step_of_answer (Brief.poll_of_outcome hq)]
    exact .connect hp
  | some (.error e) =>
    rw [Executor.step_of_answer (Brief.poll_of_outcome hq)]
    cases he : b.connector.retryable e with
    | false =>
      rw [Brief.conclude_of_fatal (b := b.recorded) he]
      exact .fail hp he
    | true =>
      rw [Brief.conclude_of_transient (b := b.recorded) he]
      have hlost : lost env.recorded (m.heard own) q = lost env (m.heard own) q.1 := rfl
      cases hc : lost env (m.heard own) q.1 with
      | true =>
        rw [Brief.announceBackoff_of_lost (hlost.trans hc)]
        exact .hush hp he hc
      | false =>
        rcases hd : b.peek (m.heard own, q.1) with ⟨d, m₁, u₁⟩
        rcases hs : b.peekSeconds (m₁, u₁) with ⟨s, m₂, u₂⟩
        -- what is looked up does not depend on the record
        have hd' : b.recorded.peek (m.heard own, q) = (d, m₁, q.goOn u₁) := by
          rw [Brief.peek_recorded, hd]
        have hs' : b.recorded.peekSeconds (m₁, q.goOn u₁) = (s, m₂, q.goOn u₂) := by
          rw [Brief.peekSeconds_recorded b m₁ (q.goOn u₁)]
          exact congrArg (fun a => (a.1, a.2.1, q.goOn a.2.2)) hs
        rw [Brief.announceBackoff_of_not_lost (hlost.trans hc) hd' hs']
        exact .announce hp he hc hd hs

theorem act_step (b : Brief ω ε) (env : Surroundings ω ε) (st : Stage Unit ε) (m : Memory)
    (r : Recording ω (Deed ε)) :
    Act b env st m r (Executor.step (b.recorded.host env.recorded) st (m, r)) := by
  by_cases hst : st = .attempting
  · subst hst
    exact act_poll b env m r
  · have hm := Executor.step_move (b.recorded.host env.recorded) st (m, r)
    generalize Executor.step (b.recorded.host env.recorded) st (m, r) = p at hm ⊢
    cases hm with
    | stop hs hc => exact .stop hs hc
    | begin hc => exact .begin hc
    | pend | answer => exact absurd rfl hst
    | @draw _ q d hc hn =>
      rcases hu : b.next env (m, r.1) with ⟨d', m', u⟩
      have hq : (d, q) = (d', m', r.goOn u) := by
        rw [← hn]
        show b.recorded.next env.recorded (m, r) = _
        rw [Brief.next_recorded, hu]
      obtain ⟨rfl, rfl⟩ := Prod.mk.inj hq
      exact .draw hc hu
    | @wake due _ q hc hw =>
      obtain ⟨x, hx, rfl⟩ := Option.map_eq_some_iff.mp hw
      obtain ⟨u, hu, rfl⟩ := Option.map_eq_some_iff.mp hx
      exact .wake hc hu
    | sleep hc hw =>
      refine .sleep hc ?_
      simpa [Brief.host, Surroundings.recorded] using hw
    | rest => exact .rest

theorem Act.eq_of_waiting {b : Brief ω ε} {env : Surroundings ω ε} {st st' : Stage Unit ε}
    {m : Memory} {r : Recording ω (Deed ε)} {s : Memory × Recording ω (Deed ε)}
    (ha : Act b env st m r (.waiting st' s)) : st' = st := by
  cases ha <;> rfl

/-- What an attempt has come to is dealt with at once. -/
theorem Act.ne_refused_of_waiting {b : Brief ω ε} {env : Surroundings ω ε} {st st' : Stage Unit ε}
    {m : Memory} {r : Recording ω (Deed ε)} {s : Memory × Recording ω (Deed ε)}
    (ha : Act b env st m r (.waiting st' s)) : st ≠ .refused := by
  cases ha <;> exact nofun

theorem memory_runAt (s : State ε) (st : Stage Unit ε) : (s.runAt st).memory = s.memory := by
  cases st <;> rfl

theorem memory_expireAt (s : State ε) (st : Stage Unit ε) : (s.expireAt st).memory = s.memory := by
  cases st with
  | ended x =>
    match x with
    | .ok () | .error _ => rfl
  | ready | attempting | refused | pausing due => rfl

theorem limit_runAt (s : State ε) (st : Stage Unit ε) : (s.runAt st).limit = s.limit := by
  cases st <;> rfl

theorem limit_expireAt (s : State ε) (st : Stage Unit ε) : (s.expireAt st).limit = s.limit := by
  cases st with
  | ended x =>
    match x with
    | .ok () | .error _ => rfl
  | ready | attempting | refused | pausing due => rfl

theorem kind_closingNotice {b : Brief ω ε} {m : Memory} {x : Except (CampaignFailure ε) Unit}
    {n : Notice} (h : State.closingNotice b m x = some n) : n.kind ≠ .backoffScheduled := by
  match x with
  | .ok () | .error (.fatal _) => cases h
  | .error .canceled | .error (.deadlineExceeded _) =>
    obtain rfl := Option.some.inj h
    exact nofun

/-- What a step of a campaign can do. -/
inductive Turn (b : Brief ω ε) (env : Surroundings ω ε) :
    State ε → Recording ω (Deed ε) → Progress (State ε) (Recording ω (Deed ε)) → Prop where
  | run {m m' : Memory} {st st' : Stage Unit ε} {limit : Option (Nat × Duration)}
      {r q : Recording ω (Deed ε)} (ha : Act b env st m r (.moving st' (m', q))) :
      Turn b env ⟨m, .running st, limit⟩ r (.moving (State.runAt ⟨m', .running st, limit⟩ st') q)
  | stay {m m' : Memory} {st st' : Stage Unit ε} {limit : Option (Nat × Duration)}
      {r q : Recording ω (Deed ε)} (ha : Act b env st m r (.waiting st' (m', q)))
      (hw : ∀ l ∈ limit, env.wake l.1 q.1 = none) :
      Turn b env ⟨m, .running st, limit⟩ r (.waiting ⟨m', .running st, limit⟩ q)
  | expire {m m' : Memory} {st st' : Stage Unit ε} {due : Nat} {d : Duration}
      {r q : Recording ω (Deed ε)} {u : ω} (ha : Act b env st m r (.waiting st' (m', q)))
      (hw : env.wake due q.1 = some u) :
      Turn b env ⟨m, .running st, some (due, d)⟩ r
        (.moving ⟨{ m' with expired := true }, .expiring st, some (due, d)⟩ (q.goOn u))
  | last {m m' : Memory} {st st' : Stage Unit ε} {limit : Option (Nat × Duration)}
      {r q : Recording ω (Deed ε)} (ha : Act b env st m r (.moving st' (m', q))) :
      Turn b env ⟨m, .expiring st, limit⟩ r
        (.moving (State.expireAt ⟨m', .expiring st, limit⟩ st') q)
  | linger {m m' : Memory} {st st' : Stage Unit ε} {limit : Option (Nat × Duration)}
      {r q : Recording ω (Deed ε)} (ha : Act b env st m r (.waiting st' (m', q)))
      (hw : env.wake (env.now q.1) q.1 = none) :
      Turn b env ⟨m, .expiring st, limit⟩ r (.waiting ⟨m', .expiring st, limit⟩ q)
  | giveUp {m m' : Memory} {st st' : Stage Unit ε} {limit : Option (Nat × Duration)}
      {r q : Recording ω (Deed ε)} {u : ω} (ha : Act b env st m r (.waiting st' (m', q)))
      (hw : env.wake (env.now q.1) q.1 = some u) :
      Turn b env ⟨m, .expiring st, limit⟩ r
        (.moving (State.giveUp ⟨m', .expiring st, limit⟩) (q.goOn u))
  | close {m : Memory} {x : Except (CampaignFailure ε) Unit} {limit : Option (Nat × Duration)}
      {r : Recording ω (Deed ε)} :
      Turn b env ⟨m, .closing x, limit⟩ r (.moving ⟨m, .finished x, limit⟩
        ((State.closingNotice b m x).elim r fun n => env.recorded.publish n r))
  | rest {m : Memory} {x : Except (CampaignFailure ε) Unit} {limit : Option (Nat × Duration)}
      {r : Recording ω (Deed ε)} :
      Turn b env ⟨m, .finished x, limit⟩ r (.waiting ⟨m, .finished x, limit⟩ r)

theorem turn_step (b : Brief ω ε) (env : Surroundings ω ε) (s : State ε)
    (r : Recording ω (Deed ε)) :
    Turn b env s r (State.step b.recorded env.recorded s r) := by
  obtain ⟨m, ph, limit⟩ := s
  cases ph with
  | running st =>
    have ha := act_step b env st m r
    rcases hp : Executor.step (b.recorded.host env.recorded) st (m, r) with ⟨⟨⟩, st', m', q⟩
    · rw [hp] at ha
      rw [step_running_of_waiting hp]
      rcases limit with _ | ⟨due, d⟩
      · exact .stay ha nofun
      · show Turn b env _ r (((env.wake due q.1).map q.goOn).elim _ _)
        cases hw : env.wake due q.1 with
        | none =>
          refine .stay ha ?_
          rintro l ⟨⟩
          exact hw
        | some u => exact .expire ha hw
    · rw [hp] at ha
      rw [step_running_of_moving hp]
      exact .run ha
  | expiring st =>
    have ha := act_step b env st m r
    rcases hp : Executor.step (b.recorded.host env.recorded) st (m, r) with ⟨⟨⟩, st', m', q⟩
    · rw [hp] at ha
      rw [step_expiring_of_waiting hp]
      show Turn b env _ r (((env.wake (env.now q.1) q.1).map q.goOn).elim _ _)
      cases hw : env.wake (env.now q.1) q.1 with
      | none => exact .linger ha hw
      | some u => exact .giveUp ha hw
    · rw [hp] at ha
      rw [step_expiring_of_moving hp]
      exact .last ha
  | closing x => exact .close
  | finished x => exact .rest

end Reattempt.Campaign
