import Reattempt.Proofs.Campaign.Frame
import Reattempt.Proofs.Schedule

/-!
# Before the deadline

Until its deadline has passed, a campaign does what it would do without one: under
the same schedule it does the same at the same times, and ends in the same way. A
deadline is only a timer beside the run, and one that does not ring too early.
-/

namespace Reattempt.Campaign

open Executor (Stage)

variable {ω ε : Type}

/-- The same campaigns under a deadline. -/
def Brief.within (b : Brief ω ε) (d : Duration) : Brief ω ε :=
  { b with settings := b.settings.withDeadline d }

def State.under (s : State ε) (limit : Nat × Duration) : State ε := { s with limit := some limit }

/-- The course of a campaign under a schedule, and its record. -/
def Brief.course (b : Brief ω ε) (env : Surroundings ω ε) (l : List (Happening ω)) (w : ω) :
    State ε × Recording ω (Deed ε) :=
  play (State.step b.recorded env.recorded) (l.map .beside) (.begin b (env.now w), w, [])

def Phase.Unexpired : Phase ε → Prop
  | .expiring _ => False
  | _ => True

section Course

variable {b : Brief ω ε} {env : Surroundings ω ε} {w : ω}

theorem course_nil (b : Brief ω ε) (env : Surroundings ω ε) (w : ω) :
    b.course env [] w = (.begin b (env.now w), w, []) := rfl

theorem course_concat (b : Brief ω ε) (env : Surroundings ω ε) (l : List (Happening ω))
    (h : Happening ω) (w : ω) : b.course env (l ++ [h]) w =
      h.beside.apply (State.step b.recorded env.recorded) (b.course env l w) := by
  rw [Brief.course, List.map_append, List.map_singleton, play_concat]
  rfl

theorem run_of_course (b : Brief ω ε) (env : Surroundings ω ε) (l : List (Happening ω)) (w : ω) :
    Run (State.step b.recorded env.recorded) (Recording.drift fun _ _ _ => True)
      (.begin b (env.now w)) (w, []) (b.course env l w).1 (b.course env l w).2 :=
  Recording.run_play l _ _

/-- Schedules bring about whatever runs do. -/
theorem exists_course {drift : State ε → ω → ω → Prop} {s : State ε} {r : Recording ω (Deed ε)}
    (run : Run (State.step b.recorded env.recorded) (Recording.drift drift)
      (.begin b (env.now w)) (w, []) s r) : ∃ l, b.course env l w = (s, r) :=
  Recording.exists_play run

/-- Whatever a campaign and the schedule keep lasts. -/
theorem keeps_course {P : ω → Prop} (hk : Keeps b env P) {l front : List (Happening ω)}
    (hl : ∀ h ∈ l, h.Keeps P) (hfront : front <+: l) (hw : P (b.course env front w).2.1) :
    P (b.course env l w).2.1 := by
  obtain ⟨rest, rfl⟩ := hfront
  induction rest using List.reverseRecOn with
  | nil => rwa [List.append_nil]
  | append_singleton rest h ih =>
    have hlast := hl h (by simp)
    have hrest := ih fun h' hh => hl h' (by
      rw [← List.append_assoc]
      exact List.mem_append_left _ hh)
    rw [← List.append_assoc, course_concat]
    cases h with
    | step => exact keeps_turn hk (turn_step b env _ _) hrest
    | change f => exact hlast _ hrest

end Course

/-! ## Without a deadline -/

section Step

variable {b : Brief ω ε} {env : Surroundings ω ε} {s : State ε} {r : Recording ω (Deed ε)}

theorem unexpired_runAt (s : State ε) (st : Stage Unit ε) : (s.runAt st).phase.Unexpired := by
  cases st <;> trivial

theorem unexpired_turn {p : Progress (State ε) (Recording ω (Deed ε))} (ht : Turn b env s r p)
    (hs : s.limit = none) (hp : s.phase.Unexpired) : p.state.phase.Unexpired := by
  cases ht with
  | run => exact unexpired_runAt _ _
  | expire => cases hs
  | last | linger | giveUp => exact False.elim hp
  | stay | close | rest => trivial

/-- Without a deadline no deadline passes. -/
theorem unexpired_run {drift : State ε → ω → ω → Prop} {now : Nat} {w : ω}
    (hb : b.settings.campaignDeadline = none)
    (run : Run (State.step b.recorded env.recorded) (Recording.drift drift) (.begin b now) (w, [])
      s r) : s.limit = none ∧ s.phase.Unexpired := by
  have hlimit {s r} (run : Run (State.step b.recorded env.recorded) (Recording.drift drift)
      (.begin b now) (w, []) s r) : s.limit = none := by
    rw [limit_run run, hb]
    rfl
  refine ⟨hlimit run, ?_⟩
  induction run with
  | refl => trivial
  | step run ih => exact unexpired_turn (turn_step b env _ _) (hlimit run) ih
  | drift _ _ ih => exact ih

theorem runAt_under (s : State ε) (limit : Nat × Duration) (st : Stage Unit ε) :
    (s.under limit).runAt st = (s.runAt st).under limit := by
  cases st <;> rfl

/-- Of its settings a run uses nothing but the generator that they describe. -/
theorem host_eq_of_own_eq {c : Connector ε} {shared : Option (Backoff.Source ω)}
    {s s' : Settings} (h : Brief.own (ω := ω) ⟨c, s, shared⟩ = Brief.own (ω := ω) ⟨c, s', shared⟩)
    (env : Surroundings ω ε) :
    Brief.host ⟨c, s, shared⟩ env = Brief.host ⟨c, s', shared⟩ env := by
  have hnext : Brief.next ⟨c, s, shared⟩ env = Brief.next ⟨c, s', shared⟩ env := by
    funext a
    unfold Brief.next
    rw [h]
  have hpeek : Brief.peek ⟨c, s, shared⟩ = Brief.peek ⟨c, s', shared⟩ := by
    funext a
    unfold Brief.peek
    rw [h]
  have hseconds : Brief.peekSeconds ⟨c, s, shared⟩ = Brief.peekSeconds ⟨c, s', shared⟩ := by
    funext a
    unfold Brief.peekSeconds
    rw [h]
  have hannounce : Brief.announceBackoff ⟨c, s, shared⟩ env =
      Brief.announceBackoff ⟨c, s', shared⟩ env := by
    funext e a
    unfold Brief.announceBackoff
    rw [hpeek, hseconds]
    rfl
  have hconclude : Brief.conclude ⟨c, s, shared⟩ env = Brief.conclude ⟨c, s', shared⟩ env := by
    funext a o
    unfold Brief.conclude
    rw [hannounce]
    rfl
  have hpoll : Brief.poll ⟨c, s, shared⟩ env = Brief.poll ⟨c, s', shared⟩ env := by
    funext a
    unfold Brief.poll
    rw [hconclude]
  unfold Brief.host
  rw [hnext, hpoll]
  rfl

theorem own_within (b : Brief ω ε) (d : Duration) : (b.within d).own = b.own := rfl

theorem host_within (b : Brief ω ε) (d : Duration) (env : Surroundings ω ε) :
    (b.within d).host env = b.host env := by
  obtain ⟨c, s, shared⟩ := b
  exact host_eq_of_own_eq (own_within ⟨c, s, shared⟩ d) env

/-- A timer that does not ring changes nothing in a step. -/
theorem step_under (limit : Nat × Duration) {w : ω} (hs : s.limit = none)
    (hp : s.phase.Unexpired) (hwake : env.wake limit.1 (State.step b env s w).world = none) :
    State.step (b.within limit.2) env (s.under limit) w =
      (State.step b env s w).map (·.under limit) := by
  obtain ⟨m, ph, l⟩ := s
  obtain rfl : l = none := hs
  cases ph with
  | running st =>
    rcases hq : Executor.step (b.host env) st (m, w) with ⟨⟨⟩, st', m', v⟩
    · have hq' := hq
      rw [← host_within b limit.2 env] at hq'
      rw [step_running_of_waiting hq] at hwake ⊢
      rw [State.under, step_running_of_waiting hq']
      show (env.wake limit.1 v).elim _ _ = _
      rw [show env.wake limit.1 v = none from hwake]
      rfl
    · have hq' := hq
      rw [← host_within b limit.2 env] at hq'
      rw [State.under, step_running_of_moving hq', step_running_of_moving hq]
      exact congrArg (Progress.moving · v) (runAt_under ⟨m', .running st, none⟩ limit st')
  | expiring st => exact False.elim hp
  | closing x => rfl
  | finished x => rfl

end Step

section Deadline

variable {b : Brief ω ε} {env : Surroundings ω ε} {d : Duration} {w : ω}

theorem begin_within (b : Brief ω ε) (hd : d.isZero = false) (now : Nat) :
    State.begin (b.within d) now = (State.begin b now).under (now + d.ceilMillis, d) := by
  have h : (b.within d).settings.campaignDeadline = some d := by
    show (if d.isZero then none else some d) = some d
    rw [hd]
    rfl
  rw [State.begin, h]
  rfl

/-- Before the deadline the courses of a campaign with and without it are the same. -/
theorem course_within (hb : b.settings.campaignDeadline = none) (hd : d.isZero = false)
    (htimer : ∀ due w v, env.wake due w = some v → due ≤ env.now w) {l : List (Happening ω)}
    (hl : ∀ front, front <+: l →
      env.now (b.course env front w).2.1 < env.now w + d.ceilMillis) :
    (b.within d).course env l w =
      ((b.course env l w).1.under (env.now w + d.ceilMillis, d), (b.course env l w).2) := by
  induction l using List.reverseRecOn with
  | nil => exact congrArg (·, (w, [])) (begin_within b hd (env.now w))
  | append_singleton l h ih =>
    have hsame := ih fun front hfront => hl front (hfront.trans (List.prefix_append l [h]))
    have hnow := hl (l ++ [h]) (List.prefix_refl _)
    obtain ⟨hlimit, hphase⟩ := unexpired_run hb (run_of_course b env l w)
    rw [course_concat] at hnow ⊢
    rw [course_concat, hsame]
    cases h with
    | step =>
      -- the timer is looked at where the step ends, and that is too early for it
      have hwake : env.wake (env.now w + d.ceilMillis) (State.step b.recorded env.recorded
          (b.course env l w).1 (b.course env l w).2).world.1 = none := by
        rw [Option.eq_none_iff_forall_ne_some]
        intro v hv
        exact absurd (htimer _ _ v hv) (Nat.not_le.mpr hnow)
      have hwake' : env.recorded.wake (env.now w + d.ceilMillis) (State.step b.recorded
          env.recorded (b.course env l w).1 (b.course env l w).2).world = none := by
        rw [wake_recorded, hwake]
        rfl
      have hstep := step_under (env.now w + d.ceilMillis, d) hlimit hphase hwake'
      exact congrArg (fun p => (p.state, p.world)) hstep
    | change f => rfl

/-- A campaign that without a deadline has come to some point before `d` has passed comes to it
under the deadline `d` too: all along it asks the same of its surroundings in the same worlds, and
has returned the same if it has returned. And its caller's token is cancelled only if its
surroundings do that. -/
theorem course_within_of_lt (hb : b.settings.campaignDeadline = none) (hd : d.isZero = false)
    (htimer : ∀ due w v, env.wake due w = some v → due ≤ env.now w)
    (hclock : ∀ t, Keeps b env fun v => t ≤ env.now v) {l : List (Happening ω)}
    (hl : ∀ t, ∀ h ∈ l, h.Keeps fun v => t ≤ env.now v)
    (hend : env.now (b.course env l w).2.1 * Duration.nanosPerMilli <
      env.now w * Duration.nanosPerMilli + d.toNanos) :
    (∀ front, front <+: l →
      ((b.within d).course env front w).1.result? = (b.course env front w).1.result? ∧
      ((b.within d).course env front w).2 = (b.course env front w).2) ∧
    ∀ P : ω → Prop, (∀ v, P v → env.cancelled v = false) → Keeps (b.within d) env P → P w →
      ∀ k : List (Happening ω), (∀ h ∈ k, h.Keeps P) →
        env.cancelled ((b.within d).course env k w).2.1 = false := by
  constructor
  · intro front hfront
    -- the clock never goes back, so the whole course lies before the deadline
    have hbefore (early : List (Happening ω)) (hearly : early <+: front) :
        env.now (b.course env early w).2.1 < env.now w + d.ceilMillis := by
      have hmono : env.now (b.course env early w).2.1 ≤ env.now (b.course env l w).2.1 :=
        keeps_course (hclock _) (hl _) (hearly.trans hfront) (Nat.le_refl _)
      exact Nat.lt_of_le_of_lt hmono (Duration.lt_add_ceilMillis hend)
    rw [course_within hb hd htimer hbefore]
    exact ⟨rfl, rfl⟩
  · intro P hP hk hw k hkept
    exact hP _ (keeps_course hk hkept List.nil_prefix hw)

end Deadline

/-- A campaign without a deadline, whose connector is refused once. -/
def hesitant : Brief (Rehearsal.World Unit String) String where
  connector := ⟨"hesitant", (· == "refused"), id⟩
  settings := .standard
  shared := none

def hesitantWorld : Rehearsal.World Unit String :=
  .initial
    [{ name := "hesitant", ownToken := false, audience := .recorder "log", calls := 0,
       flight := none
       script :=
        { steps := [(1, ⟨.no, none, none, .failed "refused" true⟩)]
          afterwards := ⟨.no, none, none, .ok ()⟩ } }] none

/-- Its pause lasts a second. -/
def hesitantly : List (Happening (Rehearsal.World Unit String)) :=
  .replicate 4 .step ++ [.change fun v => { v with clock := v.clock + 1000 }] ++ .replicate 5 .step

theorem course_within_hesitant :
    (hesitant.course (Rehearsal.surroundings 0) hesitantly hesitantWorld).1.result? =
      some (.ok ()) ∧
    ((hesitant.within (.ofSecs 2)).course (Rehearsal.surroundings 0) hesitantly
      hesitantWorld).1.result? = some (.ok ()) ∧
    ((hesitant.within (.ofSecs 2)).course (Rehearsal.surroundings 0) hesitantly
      hesitantWorld).2 =
      (hesitant.course (Rehearsal.surroundings 0) hesitantly hesitantWorld).2 := by
  have hresult : (hesitant.course (Rehearsal.surroundings 0) hesitantly hesitantWorld).1.result? =
      some (.ok ()) := rfl
  have hsched (t : Nat) : ∀ h ∈ hesitantly, h.Keeps fun v => t ≤ v.clock := by
    intro h hh
    cases h with
    | step => trivial
    | change f =>
      obtain rfl : f = fun v => { v with clock := v.clock + 1000 } := by
        simpa [hesitantly] using hh
      exact fun v hv => Nat.le_add_right_of_le hv
  have hclock (t : Nat) : Keeps hesitant (Rehearsal.surroundings 0) fun v => t ≤ v.clock :=
    keeps_clock rfl 0 (fun _ _ _ => Rehearsal.World.clock_wake) (t ≤ ·)
  obtain ⟨hsame, -⟩ := course_within_of_lt (d := .ofSecs 2) (w := hesitantWorld) rfl rfl
    (fun _ _ _ h => (Rehearsal.World.allowance_of_wake h).2) hclock hsched (by decide)
  obtain ⟨hx, hr⟩ := hsame hesitantly (List.prefix_refl _)
  exact ⟨hresult, hx.trans hresult, hr⟩

end Reattempt.Campaign
