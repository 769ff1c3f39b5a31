import Reattempt.Campaign.State
import Reattempt.Proofs.Executor.Record

/-!
# Campaigns on a part of the world

Surroundings and a shared generator may do to a world just what others do to a
part of it. A campaign in the world then does the same as one in its part: the
same steps, and to the part the same.
-/

namespace Reattempt

open Executor (Stage)

variable {ω υ ε : Type}

/-- A source whose world is the part `π` of a larger one, on which `src'` answers the same. -/
structure Backoff.Source.Part (π : υ → ω) (src' : Source υ) (src : Source ω) : Prop where
  next : ∀ rolls v, src.next rolls (π v) = ((src'.next rolls v).1, π (src'.next rolls v).2)
  peek : ∀ v, src.peek (π v) = ((src'.peek v).1, π (src'.peek v).2)
  peekSeconds : ∀ v, src.peekSeconds (π v) = ((src'.peekSeconds v).1, π (src'.peekSeconds v).2)

namespace Campaign

/-- Surroundings whose world is the part `π` of a larger one, on which `env'` acts the same. -/
structure Surroundings.Part (π : υ → ω) (env' : Surroundings υ ε) (env : Surroundings ω ε) :
    Prop where
  now : ∀ v, env.now (π v) = env'.now v
  wake : ∀ due v, env.wake due (π v) = (env'.wake due v).map π
  cancelled : ∀ v, env.cancelled (π v) = env'.cancelled v
  start : ∀ v, env.start (π v) = π (env'.start v)
  poll : ∀ c v, env.poll c (π v) = ((env'.poll c v).1, π (env'.poll c v).2)
  publish : ∀ n v, env.publish n (π v) = π (env'.publish n v)
  pause : ∀ d v, env.pause d (π v) = π (env'.pause d v)
  roll : ∀ v, env.roll (π v) = ((env'.roll v).1, π (env'.roll v).2)

/-- The same campaigns on a part of the world, with a generator there that answers as theirs. -/
structure Brief.Part (π : υ → ω) (b' : Brief υ ε) (b : Brief ω ε) : Prop where
  connector : b.connector = b'.connector
  settings : b.settings = b'.settings
  shared : Option.Rel (Backoff.Source.Part π) b'.shared b.shared

namespace Brief

theorem next_of_own {b : Brief ω ε} {env : Surroundings ω ε} {w u : ω} {rolls : Backoff.Rolls}
    (hs : b.shared = none) (hr : env.roll w = (rolls, u)) (m : Memory) :
    b.next env (m, w) = ask m u (b.own.next rolls m.fresh) := by
  rw [next]
  rw [hr, hs]

theorem next_of_shared {b : Brief ω ε} {env : Surroundings ω ε} {w u : ω}
    {rolls : Backoff.Rolls} {src : Backoff.Source ω} (hs : b.shared = some src)
    (hr : env.roll w = (rolls, u)) (m : Memory) :
    b.next env (m, w) = ((src.next rolls u).1, m, (src.next rolls u).2) := by
  rw [next]
  rw [hr, hs]

theorem peek_of_own {b : Brief ω ε} (hs : b.shared = none) (m : Memory) (w : ω) :
    b.peek (m, w) = ask m w (b.own.peek m.fresh) := by
  rw [peek]
  rw [hs]

theorem peek_of_shared {b : Brief ω ε} {src : Backoff.Source ω} (hs : b.shared = some src)
    (m : Memory) (w : ω) : b.peek (m, w) = ((src.peek w).1, m, (src.peek w).2) := by
  rw [peek]
  rw [hs]

theorem peekSeconds_of_own {b : Brief ω ε} (hs : b.shared = none) (m : Memory) (w : ω) :
    b.peekSeconds (m, w) = ask m w (b.own.peekSeconds m.fresh) := by
  rw [peekSeconds]
  rw [hs]

theorem peekSeconds_of_shared {b : Brief ω ε} {src : Backoff.Source ω} (hs : b.shared = some src)
    (m : Memory) (w : ω) :
    b.peekSeconds (m, w) = ((src.peekSeconds w).1, m, (src.peekSeconds w).2) := by
  rw [peekSeconds]
  rw [hs]

/-- What a campaign remembers, beside a part of its world. -/
def onPart (π : υ → ω) (s : Memory × υ) : Memory × ω := (s.1, π s.2)

theorem ask_part {β : Type} (π : υ → ω) (m : Memory) (v : υ) (answer : β × Backoff.Fibonacci) :
    ask m (π v) answer = ((ask m v answer).1, onPart π (ask m v answer).2) := rfl

section Part

variable {π : υ → ω} {b' : Brief υ ε} {b : Brief ω ε} {env' : Surroundings υ ε}
  {env : Surroundings ω ε}

theorem Part.own_eq (hb : Part π b' b) : b.own = b'.own := by
  rw [own, own, hb.settings]

theorem Part.notice_eq (hb : Part π b' b) (k : EventKind) (m : Memory) :
    b.notice k m = b'.notice k m := by
  rw [notice, notice, hb.connector]

/-- Either neither shares a generator, or both do. -/
theorem Part.shared_cases (hb : Part π b' b) : b'.shared = none ∧ b.shared = none ∨
    ∃ src' src, b'.shared = some src' ∧ b.shared = some src ∧ Backoff.Source.Part π src' src := by
  have h := hb.shared
  generalize b'.shared = o', b.shared = o at h ⊢
  cases h with
  | none => exact .inl ⟨rfl, rfl⟩
  | some h => exact .inr ⟨_, _, rfl, rfl, h⟩

theorem next_part (hb : Part π b' b) (henv : Surroundings.Part π env' env) (s : Memory × υ) :
    b.next env (onPart π s) = ((b'.next env' s).1, onPart π (b'.next env' s).2) := by
  obtain ⟨m, v⟩ := s
  rcases hr : env'.roll v with ⟨rolls, u⟩
  have hr' : env.roll (π v) = (rolls, π u) := by rw [henv.roll, hr]
  rw [onPart]
  rcases hb.shared_cases with ⟨hs', hs⟩ | ⟨src', src, hs', hs, hsrc⟩
  · rw [next_of_own hs hr', next_of_own hs' hr, hb.own_eq]
    exact ask_part π m _ _
  · rw [next_of_shared hs hr', next_of_shared hs' hr, hsrc.next]
    rfl

theorem peek_part (hb : Part π b' b) (s : Memory × υ) :
    b.peek (onPart π s) = ((b'.peek s).1, onPart π (b'.peek s).2) := by
  obtain ⟨m, v⟩ := s
  rw [onPart]
  rcases hb.shared_cases with ⟨hs', hs⟩ | ⟨src', src, hs', hs, hsrc⟩
  · rw [peek_of_own hs, peek_of_own hs', hb.own_eq]
    exact ask_part π m _ _
  · rw [peek_of_shared hs, peek_of_shared hs', hsrc.peek]
    rfl

theorem peekSeconds_part (hb : Part π b' b) (s : Memory × υ) :
    b.peekSeconds (onPart π s) = ((b'.peekSeconds s).1, onPart π (b'.peekSeconds s).2) := by
  obtain ⟨m, v⟩ := s
  rw [onPart]
  rcases hb.shared_cases with ⟨hs', hs⟩ | ⟨src', src, hs', hs, hsrc⟩
  · rw [peekSeconds_of_own hs, peekSeconds_of_own hs', hb.own_eq]
    exact ask_part π m _ _
  · rw [peekSeconds_of_shared hs, peekSeconds_of_shared hs', hsrc.peekSeconds]
    rfl

theorem cancelled_part (henv : Surroundings.Part π env' env) (s : Memory × υ) :
    cancelled env (onPart π s) = cancelled env' s := by
  show (env.cancelled (π s.2) || s.1.expired) = _
  rw [henv.cancelled]
  rfl

theorem publish_part (henv : Surroundings.Part π env' env) (n : Notice) (s : Memory × υ) :
    publish env n (onPart π s) = onPart π (publish env' n s) :=
  congrArg (Prod.mk s.1) (henv.publish n s.2)

theorem announceBackoff_part (hb : Part π b' b) (henv : Surroundings.Part π env' env) (e : ε)
    (s : Memory × υ) :
    b.announceBackoff env e (onPart π s) = onPart π (b'.announceBackoff env' e s) := by
  rw [announceBackoff, announceBackoff, cancelled_part henv]
  show (if (_ || s.1.severed) then _ else _) = onPart π (if (_ || s.1.severed) then _ else _)
  cases cancelled env' s || s.1.severed with
  | true => rfl
  | false =>
    simp only [Bool.false_eq_true, if_false, peek_part hb, peekSeconds_part hb]
    rw [publish_part henv, hb.connector, hb.notice_eq]
    rfl

theorem conclude_part (hb : Part π b' b) (henv : Surroundings.Part π env' env) (s : Memory × υ)
    (outcome : Except ε Unit) : b.conclude env (onPart π s) outcome =
      ((b'.conclude env' s outcome).1, onPart π (b'.conclude env' s outcome).2) := by
  match outcome with
  | .ok () =>
    rw [conclude, publish_part henv, hb.notice_eq]
    rfl
  | .error e =>
    rw [conclude, conclude, hb.connector, announceBackoff_part hb henv, publish_part henv,
      hb.notice_eq]
    cases b'.connector.retryable e <;> rfl

theorem poll_part (hb : Part π b' b) (henv : Surroundings.Part π env' env) (s : Memory × υ) :
    b.poll env (onPart π s) = ((b'.poll env' s).1, onPart π (b'.poll env' s).2) := by
  obtain ⟨m, v⟩ := s
  have hc := cancelled_part henv (m, v)
  rw [onPart] at hc
  rcases hp : env'.poll (cancelled env' (m, v) || m.severed) v with ⟨⟨outcome, own⟩, u⟩
  have hp' : env.poll (cancelled env (m, π v) || m.severed) (π v) = (⟨outcome, own⟩, π u) := by
    rw [hc, henv.poll, hp]
  rw [onPart, poll, poll]
  simp only [hp, hp']
  cases outcome with
  | none => rfl
  | some outcome =>
    have h := conclude_part hb henv ({ m with severed := m.severed || own }, u) outcome
    exact congrArg (fun a => (some a.1, a.2)) h

theorem host_part (hb : Part π b' b) (henv : Surroundings.Part π env' env) :
    Executor.Host.Part (onPart π) (b'.host env') (b.host env) where
  now s := henv.now s.2
  wake due s := by
    show (env.wake due (π s.2)).map _ = ((env'.wake due s.2).map _).map _
    rw [henv.wake, Option.map_map, Option.map_map]
    rfl
  cancelled := cancelled_part henv
  start s := by
    show publish env (b.notice _ _) (_, env.start (π s.2)) = _
    rw [henv.start, hb.notice_eq]
    exact publish_part henv _ (_, env'.start s.2)
  poll := poll_part hb henv
  next := next_part hb henv
  pause d s := congrArg (Prod.mk s.1) (henv.pause d s.2)

end Part

end Brief

section Step

variable {b : Brief ω ε} {env : Surroundings ω ε} {m m' : Memory} {st st' : Stage Unit ε}
  {limit : Option (Nat × Duration)} {w v : ω}

theorem step_running_of_moving
    (h : Executor.step (b.host env) st (m, w) = .moving st' (m', v)) :
    State.step b env ⟨m, .running st, limit⟩ w =
      .moving (State.runAt ⟨m', .running st, limit⟩ st') v := by
  simp [State.step, State.run, h, Progress.moving]

theorem step_running_of_waiting
    (h : Executor.step (b.host env) st (m, w) = .waiting st' (m', v)) :
    State.step b env ⟨m, .running st, limit⟩ w =
      (limit.bind fun l => env.wake l.1 v).elim (.waiting ⟨m', .running st, limit⟩ v)
        (.moving (State.expire ⟨m', .running st, limit⟩ st)) := by
  simp only [State.step, State.run, h, Progress.waiting, Bool.false_eq_true, if_false]
  cases limit.bind fun l => env.wake l.1 v <;> rfl

theorem step_expiring_of_moving
    (h : Executor.step (b.host env) st (m, w) = .moving st' (m', v)) :
    State.step b env ⟨m, .expiring st, limit⟩ w =
      .moving (State.expireAt ⟨m', .expiring st, limit⟩ st') v := by
  simp [State.step, State.run, h, Progress.moving]

theorem step_expiring_of_waiting
    (h : Executor.step (b.host env) st (m, w) = .waiting st' (m', v)) :
    State.step b env ⟨m, .expiring st, limit⟩ w =
      (env.wake (env.now v) v).elim (.waiting ⟨m', .expiring st, limit⟩ v)
        (.moving (State.giveUp ⟨m', .expiring st, limit⟩)) := by
  simp only [State.step, State.run, h, Progress.waiting, Bool.false_eq_true, if_false]
  cases env.wake (env.now v) v <;> rfl

end Step

/-- A campaign does in a part of its world what it does in the whole. -/
theorem step_part {π : υ → ω} {b' : Brief υ ε} {b : Brief ω ε} {env' : Surroundings υ ε}
    {env : Surroundings ω ε} (hb : Brief.Part π b' b) (henv : Surroundings.Part π env' env)
    (s : State ε) (v : υ) : State.step b env s (π v) = (State.step b' env' s v).at π := by
  obtain ⟨m, ph, limit⟩ := s
  have hpart (st : Stage Unit ε) : Executor.step (b.host env) st (m, π v) = _ :=
    Executor.step_part (Brief.host_part hb henv) st (m, v)
  cases ph with
  | running st =>
    have hp := hpart st
    rcases hq : Executor.step (b'.host env') st (m, v) with ⟨⟨⟩, t, m', q⟩
    · rw [hq] at hp
      rw [step_running_of_waiting hp, step_running_of_waiting hq]
      cases limit with
      | none => rfl
      | some l =>
        show (env.wake l.1 (π q)).elim _ _ = Progress.at _ ((env'.wake l.1 q).elim _ _)
        rw [henv.wake]
        cases env'.wake l.1 q <;> rfl
    · rw [hq] at hp
      rw [step_running_of_moving hp, step_running_of_moving hq]
      rfl
  | expiring st =>
    have hp := hpart st
    rcases hq : Executor.step (b'.host env') st (m, v) with ⟨⟨⟩, t, m', q⟩
    · rw [hq] at hp
      rw [step_expiring_of_waiting hp, step_expiring_of_waiting hq]
      show (env.wake (env.now (π q)) (π q)).elim _ _ =
        Progress.at _ ((env'.wake (env'.now q) q).elim _ _)
      rw [henv.now, henv.wake]
      cases env'.wake (env'.now q) q <;> rfl
    · rw [hq] at hp
      rw [step_expiring_of_moving hp, step_expiring_of_moving hq]
      rfl
  | closing result =>
    have hn : State.closingNotice b m result = State.closingNotice b' m result := by
      match result with
      | .ok () | .error (.fatal _) => rfl
      | .error .canceled => exact congrArg some (hb.notice_eq _ _)
      | .error (.deadlineExceeded d) =>
        rw [State.closingNotice, State.closingNotice, hb.notice_eq]
    show Progress.moving _ ((State.closingNotice b m result).elim _ _) = Progress.at _ (.moving _ _)
    rw [hn]
    cases State.closingNotice b' m result with
    | none => rfl
    | some n => exact congrArg (Progress.moving _) (henv.publish n v)
  | finished result => rfl

end Campaign

end Reattempt
