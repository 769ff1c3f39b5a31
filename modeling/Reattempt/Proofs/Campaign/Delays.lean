import Reattempt.Proofs.Backoff.Sequence
import Reattempt.Proofs.Campaign.Deadline

/-!
# The delays of a campaign with a generator of its own

The `k`-th attempt announces the `k`-th delay of the policy, and the delay that is
then drawn is at most that, whatever the jitter: attempts and draws stay in step,
and neither looking ahead nor jitter reaches the sequence. Each campaign begins
with the first delay again.
-/

namespace Reattempt

namespace Campaign

open Executor (Stage)
open Backoff (Fibonacci Policy Jitter)

variable {ω ε : Type}

/-- A notice that announces a delay as the one after attempt `k`. -/
structure Announces (p : Policy) (k : Nat) (n : Notice) : Prop where
  attempt : n.attempt = some (.ofNat k)
  delay : ∃ d, n.delay = some d ∧ d.toNanos = p.term k ∧ n.retryInSeconds = some d.secs

/-- A delay that may be drawn after attempt `k`. -/
structure Follows (s : Settings) (k : Nat) (d : Duration) : Prop where
  le : d.toNanos ≤ s.policy.term k
  eq : s.jitter = .none → d.toNanos = s.policy.term k

/-- After the `k`-th attempt the `k`-th delay is announced, and one is drawn that follows it. -/
def OnPace (s : Settings) (l : Record ω ε) (x : Entry ω (Deed ε)) : Prop :=
  match x.deed with
  | .published n => n.kind = .backoffScheduled → Announces s.policy (begun l) n
  | .drew d => Follows s (begun l) d
  | _ => True

/-- How many attempts have not been followed by a draw. -/
def undrawn : Stage Unit ε → Nat
  | .attempting | .refused => 1
  | _ => 0

/-- While a run has not ended, its generator stands where the attempts that were begun have
brought it, and it pauses for the delay that was drawn last. -/
structure Paced (b : Brief ω ε) (env : Surroundings ω ε) (st : Stage Unit ε) (g : Fibonacci)
    (l : Record ω ε) : Prop where
  stands : ∃ n, Fibonacci.Stands b.settings.policy n g ∧ begun l = n + undrawn st
  pausing : ∀ due, st = .pausing due →
    ∃ front d u u', l = front ++ [⟨.drew d, u, u'⟩] ∧ due = env.now u + d.ceilMillis

section Act

variable {b : Brief ω ε} {env : Surroundings ω ε} {m m' : Memory} {w u : ω} {d : Duration}
  {r q : Recording ω (Deed ε)}

namespace Brief

theorem eq_of_ask {β : Type} {a d : β} {g : Fibonacci} (h : ask m w (a, g) = (d, m', u)) :
    d = a ∧ m' = { m with fresh := g } ∧ m'.fresh = g := by
  obtain ⟨rfl, rfl, -⟩ := by simpa only [ask, Prod.mk.injEq] using h
  exact ⟨rfl, rfl, rfl⟩

theorem own_peek (b : Brief ω ε) (g : Fibonacci) : b.own.peek g = (g.peek, g) := rfl

theorem own_peekSeconds (b : Brief ω ε) (g : Fibonacci) :
    b.own.peekSeconds g = (g.peek.secs, g) := rfl

theorem own_next (b : Brief ω ε) (rolls : Backoff.Rolls) (g : Fibonacci) :
    b.own.next rolls g = (b.settings.jitter.apply (rolls 0) g.next.1, g.next.2) :=
  Jitter.decorate_next b.settings.jitter Fibonacci.source rolls g

theorem eq_of_peek_own (hb : b.shared = none) (h : b.peek (m, w) = (d, m', u)) :
    d = m.fresh.peek ∧ m' = m := by
  rw [peek_of_own hb, own_peek] at h
  exact (eq_of_ask h).imp_right And.left

theorem eq_of_peekSeconds_own {s : UInt64} (hb : b.shared = none)
    (h : b.peekSeconds (m, w) = (s, m', u)) : s = m.fresh.peek.secs ∧ m' = m := by
  rw [peekSeconds_of_own hb, own_peekSeconds] at h
  exact (eq_of_ask h).imp_right And.left

theorem eq_of_next_own (hb : b.shared = none) (h : b.next env (m, w) = (d, m', u)) :
    (∃ roll, d = b.settings.jitter.apply roll m.fresh.next.1) ∧ m'.fresh = m.fresh.next.2 := by
  rcases hr : env.roll w with ⟨rolls, v⟩
  rw [next_of_own hb hr, own_next] at h
  obtain ⟨hd, -, hfresh⟩ := eq_of_ask h
  exact ⟨⟨rolls 0, hd⟩, hfresh⟩

end Brief

theorem each_note {P : Record ω ε → Entry ω (Deed ε) → Prop} (h : Each P r.2) {d : Deed ε} {v : ω}
    (hd : P r.2 ⟨d, r.1, v⟩) : Each P (r.note d v).2 :=
  each_concat.mpr ⟨h, hd⟩

theorem each_publish {s : Settings} (h : Each (OnPace s) r.2) (env : Surroundings ω ε) {n : Notice}
    (hn : n.kind ≠ .backoffScheduled) : Each (OnPace s) (env.recorded.publish n r).2 :=
  each_note h fun hk => absurd hk hn

theorem each_polled {s : Settings} {reply : Reply ε} (h : Each (OnPace s) r.2)
    (hp : Polled env m r reply q) : Each (OnPace s) q.2 := by
  rw [hp.noted]
  exact each_note h trivial

theorem onPace_act {st : Stage Unit ε}
    {p : Progress (Stage Unit ε) (Memory × Recording ω (Deed ε))} (hb : b.shared = none)
    (ha : Act b env st m r p) (hm : Counts m r.2) (hl : Each (OnPace b.settings) r.2)
    (hs : st.result? = none → Paced b env st m.fresh r.2) :
    Each (OnPace b.settings) p.world.2.2 := by
  cases ha with
  | stop | wake | sleep | rest => exact hl
  | begin =>
    have hq : Each (OnPace b.settings) (env.recorded.start r).2 := each_note hl trivial
    exact each_publish hq env nofun
  | pend hp | hush hp => exact each_polled hl hp
  | connect hp | fail hp => exact each_publish (each_polled hl hp) env nofun
  | @announce _ m₁ m₂ _ q e own d s u₁ u₂ hp he hc hd hseconds =>
    obtain ⟨n, hg, hn⟩ := (hs rfl).stands
    obtain ⟨rfl, rfl⟩ := Brief.eq_of_peek_own hb hd
    obtain ⟨rfl, rfl⟩ := Brief.eq_of_peekSeconds_own hb hseconds
    have hbegun : begun q.2 = n + 1 := (begun_polled hp).trans hn
    have hcounts : (m.heard own).attempts = .ofNat (begun q.2) := counts_polled hm hp own
    have hq : Each (OnPace b.settings) q.2 := each_polled hl hp
    refine each_note (r := q.goOn u₂) hq fun _ => ⟨congrArg some hcounts, ?_⟩
    refine ⟨m.fresh.peek, rfl, ?_, rfl⟩
    show _ = b.settings.policy.term (begun q.2)
    rw [hbegun]
    exact hg.toNanos_peek
  | @draw _ m' _ d u hc hn =>
    obtain ⟨n, hg, hbegun⟩ := (hs rfl).stands
    obtain ⟨⟨roll, rfl⟩, -⟩ := Brief.eq_of_next_own hb hn
    have hterm : m.fresh.next.1.toNanos = b.settings.policy.term (begun r.2) := by
      rw [hbegun, Fibonacci.fst_next]
      exact hg.toNanos_peek
    refine each_note (r := r.goOn u) hl ⟨?_, ?_⟩
    · exact hterm ▸ Jitter.toNanos_apply_le b.settings.jitter roll m.fresh.next.1
    · intro hjitter
      rw [hjitter, Jitter.apply_none]
      exact hterm

/-- Nothing but the number of attempts and the generator decides whether a run that does not pause
is on pace. -/
theorem Paced.of_begun {st st' : Stage Unit ε} {g : Fibonacci} {l l' : Record ω ε}
    (h : Paced b env st g l) (hl : begun l' + undrawn st = begun l + undrawn st')
    (hst : st'.due? = none) : Paced b env st' g l' := by
  obtain ⟨n, hg, hn⟩ := h.stands
  refine ⟨⟨n, hg, by omega⟩, ?_⟩
  rintro due rfl
  cases hst

theorem paced_act {st : Stage Unit ε}
    {p : Progress (Stage Unit ε) (Memory × Recording ω (Deed ε))} (hb : b.shared = none)
    (ha : Act b env st m r p) (hs : st.result? = none → Paced b env st m.fresh r.2)
    (hgoing : p.state.result? = none) : Paced b env p.state p.world.1.fresh p.world.2.2 := by
  cases ha with
  | stop | connect | fail | rest => cases hgoing
  | begin =>
    have hstart := begun_start env r
    have hbegun := begun_publish env (b.notice .attemptStarting m.renewed) (env.recorded.start r)
    exact (hs rfl).of_begun (hbegun.trans hstart) rfl
  | pend hp | hush hp => exact (hs rfl).of_begun (congrArg (· + 1) (begun_polled hp)) rfl
  | @announce _ m₁ m₂ _ q e own d s u₁ u₂ hp _ _ hd hseconds =>
    obtain ⟨-, rfl⟩ := Brief.eq_of_peek_own hb hd
    obtain ⟨-, rfl⟩ := Brief.eq_of_peekSeconds_own hb hseconds
    have hbegun := begun_publish env (b.announcement (m.heard own) d s e) (q.goOn u₂)
    have hpolled : begun q.2 = begun r.2 := begun_polled hp
    exact (hs rfl).of_begun (congrArg (· + 1) (hbegun.trans hpolled)) rfl
  | @draw _ m' _ d u _ hn =>
    obtain ⟨n, hg, hbegun⟩ := (hs rfl).stands
    obtain ⟨-, hfresh⟩ := Brief.eq_of_next_own hb hn
    refine ⟨⟨n + 1, ?_, ?_⟩, ?_⟩
    · show Fibonacci.Stands _ _ m'.fresh
      exact hfresh ▸ hg.next
    · exact (begun_concat r.2 ⟨.drew d, u, _⟩).trans hbegun
    · rintro due ⟨⟩
      exact ⟨r.2, d, u, _, rfl, rfl⟩
  | wake => exact (hs rfl).of_begun rfl rfl
  | sleep => exact hs rfl

end Act

/-! ## Whole runs -/

/-- The same of a campaign, while its run goes on. -/
def State.Paced (b : Brief ω ε) (env : Surroundings ω ε) (s : State ε) (l : Record ω ε) : Prop :=
  match s.phase with
  | .running st | .expiring st => st.result? = none → Campaign.Paced b env st s.memory.fresh l
  | .closing _ | .finished _ => True

section Turn

variable {b : Brief ω ε} {env : Surroundings ω ε} {s : State ε} {r : Recording ω (Deed ε)}

theorem paced_runAt {st : Stage Unit ε} {l : Record ω ε}
    (h : st.result? = none → Paced b env st s.memory.fresh l) : (s.runAt st).Paced b env l := by
  cases st with
  | ended x => trivial
  | ready | attempting | refused | pausing due => exact h

theorem paced_expireAt {st : Stage Unit ε} {l : Record ω ε}
    (h : st.result? = none → Paced b env st s.memory.fresh l) : (s.expireAt st).Paced b env l := by
  cases st with
  | ended x =>
    match x with
    | .ok () | .error _ => trivial
  | ready | attempting | refused | pausing due => exact h

theorem paced_turn {p : Progress (State ε) (Recording ω (Deed ε))} (hb : b.shared = none)
    (ht : Turn b env s r p) (hm : Counts s.memory r.2) (hl : Each (OnPace b.settings) r.2)
    (hs : s.Paced b env r.2) :
    Each (OnPace b.settings) p.world.2 ∧ p.state.Paced b env p.world.2 := by
  cases ht with
  | run ha => exact ⟨onPace_act hb ha hm hl hs, paced_runAt (paced_act hb ha hs)⟩
  | last ha => exact ⟨onPace_act hb ha hm hl hs, paced_expireAt (paced_act hb ha hs)⟩
  | stay ha | linger ha | expire ha =>
    exact ⟨onPace_act hb ha hm hl hs, ha.eq_of_waiting ▸ paced_act hb ha hs⟩
  | giveUp ha => exact ⟨onPace_act hb ha hm hl hs, trivial⟩
  | @close m x =>
    refine ⟨?_, trivial⟩
    cases hn : State.closingNotice b m x with
    | none => exact hl
    | some n => exact each_publish hl env (kind_closingNotice hn)
  | rest => exact ⟨hl, trivial⟩

theorem paced_run {drift : State ε → ω → ω → Prop} {now : Nat} {w : ω} (hb : b.shared = none)
    (run : Run (State.step b.recorded env.recorded) (Recording.drift drift) (.begin b now) (w, [])
      s r) : Each (OnPace b.settings) r.2 ∧ s.Paced b env r.2 := by
  induction run with
  | refl => exact ⟨each_nil _, fun _ => ⟨⟨0, Fibonacci.stands_ofPolicy _, rfl⟩, nofun⟩⟩
  | step run ih => exact paced_turn hb (turn_step b env _ _) (counts_run run) ih.1 ih.2
  | drift _ hu ih => exact hu.2 ▸ ih

end Turn

/-- Whatever was recorded before, a campaign that shares no generator announces after its `k`-th
attempt the `k`-th delay of its policy, and then draws one that is no longer, or the same if there
is no jitter; and the pause lasts as long as the delay that was drawn last. -/
theorem delays_run {b : Brief ω ε} {env : Surroundings ω ε} {drift : State ε → ω → ω → Prop}
    {now : Nat} {w v : ω} {s : State ε} {l₀ l : Record ω ε} (hb : b.shared = none)
    (run : Run (State.step b.recorded env.recorded) (Recording.drift drift) (.begin b now) (w, l₀)
      s (v, l₀ ++ l)) :
    Each (OnPace b.settings) l ∧
    ∀ due, s.phase = .running (.pausing due) ∨ s.phase = .expiring (.pausing due) →
      ∃ front d u u', l = front ++ [⟨.drew d, u, u'⟩] ∧ due = env.now u + d.ceilMillis := by
  obtain ⟨l', hl, run⟩ := exists_run_after run
  obtain rfl := List.append_cancel_left hl
  obtain ⟨honpace, hpaced⟩ := paced_run hb run
  refine ⟨honpace, fun due hdue => ?_⟩
  rw [State.Paced] at hpaced
  rcases hdue with hdue | hdue
  · rw [hdue] at hpaced
    exact (hpaced rfl).pausing due rfl
  · rw [hdue] at hpaced
    exact (hpaced rfl).pausing due rfl

/-- A campaign with full jitter, whose connector is refused three times. -/
def shaken : Brief (Rehearsal.World Unit String) String :=
  { hesitant with settings := Settings.standard.withJitter .full }

def shakenWorld : Rehearsal.World Unit String :=
  .initial
    [{ name := "shaken", ownToken := false, audience := .recorder "log", calls := 0,
       flight := none
       script :=
        { steps := [(3, ⟨.no, none, none, .failed "refused" true⟩)]
          afterwards := ⟨.no, none, none, .ok ()⟩ } }] none

/-- It pauses three times, and the third pause is not over. -/
def shakily : List (Happening (Rehearsal.World Unit String)) :=
  let wait := [.change fun v => { v with clock := v.clock + 1000 }] ++ .replicate 4 .step
  .replicate 4 .step ++ wait ++ wait

theorem delays_run_shaken :
    (notices (shaken.course (Rehearsal.surroundings 0) shakily shakenWorld).2.2).filterMap
        (·.delay) = [.ofSecs 1, .ofSecs 1, .ofSecs 2] ∧
    Each (OnPace shaken.settings)
      (shaken.course (Rehearsal.surroundings 0) shakily shakenWorld).2.2 ∧
    ∃ due, (shaken.course (Rehearsal.surroundings 0) shakily shakenWorld).1.phase =
        .running (.pausing due) ∧
      ∃ front d u u', (shaken.course (Rehearsal.surroundings 0) shakily shakenWorld).2.2 =
        front ++ [⟨.drew d, u, u'⟩] ∧ due = u.clock + d.ceilMillis := by
  have run : Run _ _ (.begin shaken 0) (shakenWorld, [])
      (shaken.course (Rehearsal.surroundings 0) shakily shakenWorld).1
      ((shaken.course (Rehearsal.surroundings 0) shakily shakenWorld).2.1,
        [] ++ (shaken.course (Rehearsal.surroundings 0) shakily shakenWorld).2.2) :=
    run_of_course shaken (Rehearsal.surroundings 0) shakily shakenWorld
  obtain ⟨honpace, hpause⟩ := delays_run rfl run
  have hphase : ∃ due, (shaken.course (Rehearsal.surroundings 0) shakily shakenWorld).1.phase =
      .running (.pausing due) := ⟨_, rfl⟩
  obtain ⟨due, hdue⟩ := hphase
  exact ⟨by decide, honpace, due, hdue, hpause due (.inl hdue)⟩

end Campaign

end Reattempt
