import Reattempt.Proofs.Campaign.Announcement
import Reattempt.Proofs.Campaign.Closing
import Reattempt.Proofs.Campaign.Frame

/-!
# After the deadline

When its deadline passes, a campaign polls its run once more and returns at that
instant, whatever its attempt makes of being cancelled. Success in that poll is
success; everything else is told as the deadline. A timer of no length is taken to
give up at once, and what a campaign asks of its surroundings to take no time.
-/

namespace Reattempt.Campaign

open Executor (Stage)

variable {ω ε : Type}

/-- The clock stands still while the campaign could go on. -/
def Prompt (b : Brief ω ε) (env : Surroundings ω ε) (drift : State ε → ω → ω → Prop) : Prop :=
  ∀ s u v, drift s u v → (State.step b env s u).moved = true → env.now v = env.now u

def Deed.poll? : Deed ε → Option (Bool × Reply ε)
  | .polled cancelled reply => some (cancelled, reply)
  | _ => none

/-- The polls of attempts, in order: whether the attempt saw that it was cancelled, and what it
answered. -/
def polls (l : Record ω ε) : List (Bool × Reply ε) := l.filterMap (·.deed.poll?)

@[simp] theorem polls_concat (l : Record ω ε) (x : Entry ω (Deed ε)) :
    polls (l ++ [x]) = polls l ++ x.deed.poll?.toList := by
  cases h : x.deed.poll? <;> simp [polls, h]

/-- The deed goes on with the campaign. -/
def Deed.isWork (d : Deed ε) : Bool := d.isBegin || d.isDraw || d.isAnnouncement

/-! ## The last poll -/

/-- What the last poll may leave of a run that stood at a stage, and what the campaign returns. -/
inductive LastPoll (b : Brief ω ε) (d : Duration) :
    Stage Unit ε → Record ω ε → Except (CampaignFailure ε) Unit → Prop where
  | paused {due : Nat} : LastPoll b d (.pausing due) [] (.error (.deadlineExceeded d))
  | pending {own : Bool} {w v : ω} :
      LastPoll b d .attempting [⟨.polled true ⟨none, own⟩, w, v⟩] (.error (.deadlineExceeded d))
  | refused {e : ε} {own : Bool} {w v : ω} :
      LastPoll b d .attempting [⟨.polled true ⟨some (.error e), own⟩, w, v⟩]
        (.error (.deadlineExceeded d))
  | failed {e : ε} {own : Bool} {m : Memory} {w v u : ω} :
      LastPoll b d .attempting
        [⟨.polled true ⟨some (.error e), own⟩, w, v⟩, ⟨.published (b.failure m e), v, u⟩]
        (.error (.deadlineExceeded d))
  | connected {own : Bool} {m : Memory} {w v u : ω} :
      LastPoll b d .attempting
        [⟨.polled true ⟨some (.ok ()), own⟩, w, v⟩, ⟨.published (b.notice .connected m), v, u⟩]
        (.ok ())

namespace LastPoll

variable {b : Brief ω ε} {d : Duration} {st : Stage Unit ε} {l : Record ω ε}
  {x : Except (CampaignFailure ε) Unit}

theorem quiet (h : LastPoll b d st l x) : ∀ e ∈ l, e.deed.isWork = false := by
  cases h with
  | paused => simp
  | pending | refused => simp [Deed.isWork, Deed.isBegin, Deed.isDraw, Deed.isAnnouncement]
  | failed | connected =>
    simp [Deed.isWork, Deed.isBegin, Deed.isDraw, Deed.isAnnouncement, Brief.failure, Brief.notice,
      Notice.withReason, Notice.withAttempt, Notice.withConnector, Notice.ofKind]

theorem polls_eq (h : LastPoll b d st l x) :
    st = .attempting ∧ (∃ reply, polls l = [(true, reply)]) ∨
      (∃ due, st = .pausing due) ∧ polls l = [] := by
  cases h with
  | paused => exact .inr ⟨⟨_, rfl⟩, rfl⟩
  | pending | refused | failed | connected => exact .inl ⟨rfl, _, rfl⟩

theorem ok_iff (h : LastPoll b d st l x) :
    x = .ok () ↔ ∃ own, polls l = [(true, ⟨some (.ok ()), own⟩)] := by
  cases h <;> simp [polls, Deed.poll?]

theorem eq_of_ne_ok (h : LastPoll b d st l x) (hx : x ≠ .ok ()) :
    x = .error (.deadlineExceeded d) := by
  cases h with
  | paused | pending | refused | failed => rfl
  | connected => exact absurd rfl hx

theorem kind_ne (h : LastPoll b d st l x) : ∀ n ∈ notices l, n.kind ≠ .deadlineExceeded := by
  cases h with
  | paused | pending | refused => simp [notices, Deed.notice?]
  | failed | connected =>
    intro n hn hk
    obtain rfl := List.mem_singleton.mp hn
    cases hk

end LastPoll

theorem lost_of_expired {env : Surroundings ω ε} {m : Memory} (hm : m.expired = true) (w : ω) :
    lost env m w = true := by
  simp [lost, Brief.cancelled, hm]

theorem cancelled_ne_false {env : Surroundings ω ε} {m : Memory} (hm : m.expired = true)
    (w : ω) : Brief.cancelled env (m, w) ≠ false := by
  simp [Brief.cancelled, hm]

theorem Polled.record_of_expired {env : Surroundings ω ε} {m : Memory} {w : ω}
    {q : Recording ω (Deed ε)} {reply : Reply ε} (hp : Polled env m (w, []) reply q)
    (hm : m.expired = true) : q.2 = [⟨.polled true reply, w, q.1⟩] := by
  rw [hp.noted, lost_of_expired hm]
  rfl

/-! ## From the deadline to the end -/

/-- The notice with which a campaign that has begun so many attempts tells its deadline. -/
def Brief.expiry (b : Brief ω ε) (d : Duration) (attempts : UInt32) : Notice :=
  { kind := .deadlineExceeded
    connector := some b.connector.name
    attempt := some attempts
    delay := some d }

/-- How far a campaign has come since its deadline passed while its run stood at `st`, and what
it has noted since. -/
inductive Ebbing (b : Brief ω ε) (d : Duration) (st : Stage Unit ε) (k : UInt32) :
    State ε → Record ω ε → Prop where
  | passed {m : Memory} {due : Nat} (hm : m.expired = true) (hk : m.attempts = k) :
      Ebbing b d st k ⟨m, .expiring st, some (due, d)⟩ []
  | refused {m : Memory} {due : Nat} {l : Record ω ε} (hm : m.expired = true)
      (hk : m.attempts = k) (hl : LastPoll b d st l (.error (.deadlineExceeded d))) :
      Ebbing b d st k ⟨m, .expiring .refused, some (due, d)⟩ l
  | closing {m : Memory} {due : Nat} {l : Record ω ε} {x : Except (CampaignFailure ε) Unit}
      (hk : m.attempts = k) (hl : LastPoll b d st l x) :
      Ebbing b d st k ⟨m, .closing x, some (due, d)⟩ l
  | connected {m : Memory} {due : Nat} {l : Record ω ε} (hl : LastPoll b d st l (.ok ())) :
      Ebbing b d st k ⟨m, .finished (.ok ()), some (due, d)⟩ l
  | told {m : Memory} {due : Nat} {l : Record ω ε} {w v : ω}
      (hl : LastPoll b d st l (.error (.deadlineExceeded d))) :
      Ebbing b d st k ⟨m, .finished (.error (.deadlineExceeded d)), some (due, d)⟩
        (l ++ [⟨.published (b.expiry d k), w, v⟩])

/-- How many steps a campaign that has passed its deadline has still to make, at most. -/
def Phase.remaining : Phase ε → Nat
  | .expiring .refused => 2
  | .expiring _ => 3
  | .closing _ => 1
  | .running _ | .finished _ => 0

section Turn

variable {b : Brief ω ε} {env : Surroundings ω ε} {d : Duration} {st : Stage Unit ε} {k : UInt32}
  {w : ω} {l : Record ω ε}

/-- The first step after the deadline is the last poll. -/
theorem ebbing_poll (hzero : ∀ w, ∃ v, env.wake (env.now w) w = some v) (hst : st.Suspends)
    {m : Memory} {due : Nat} {p : Progress (State ε) (Recording ω (Deed ε))}
    (ht : Turn b env ⟨m, .expiring st, some (due, d)⟩ (w, []) p) (hm : m.expired = true) :
    Ebbing b d st m.attempts p.state p.world.2 ∧ p.moved = true ∧ p.state.phase.remaining < 3 := by
  cases ht with
  | @last _ _ _ _ _ _ q ha =>
    cases ha with
    | stop hs =>
      cases st with
      | pausing due => exact ⟨.closing rfl .paused, rfl, (by decide : 1 < 3)⟩
      | attempting | ended => exact False.elim hs
      | ready | refused => exact False.elim hst
    -- none of these is done under a cancelled token
    | begin hc | draw hc | wake hc => exact absurd hc (cancelled_ne_false hm _)
    | connect hp =>
      refine ⟨.closing rfl ?_, rfl, (by decide : 1 < 3)⟩
      show LastPoll b d _ (_ ++ [_]) _
      rw [hp.record_of_expired hm]
      exact .connected
    | fail hp =>
      refine ⟨.closing rfl ?_, rfl, (by decide : 1 < 3)⟩
      show LastPoll b d _ (_ ++ [_]) _
      rw [hp.record_of_expired hm]
      exact .failed
    | hush hp =>
      refine ⟨.refused hm rfl ?_, rfl, (by decide : 2 < 3)⟩
      show LastPoll b d _ q.2 _
      rw [hp.record_of_expired hm]
      exact .refused
    | announce _ _ hc =>
      rw [lost_of_expired (show (m.heard _).expired = true from hm)] at hc
      cases hc
  | linger _ hw =>
    -- a timer of no length does ring
    obtain ⟨v, hv⟩ := hzero _
    rw [hv] at hw
    cases hw
  | @giveUp _ _ _ _ _ _ q _ ha =>
    cases ha with
    | pend hp =>
      refine ⟨.closing rfl ?_, rfl, (by decide : 1 < 3)⟩
      show LastPoll b d _ q.2 _
      rw [hp.record_of_expired hm]
      exact .pending
    | sleep hc => exact absurd hc (cancelled_ne_false hm _)
    | rest => exact False.elim hst

/-- Each further step brings the campaign nearer to its end, and adds nothing but the notice of
the deadline. -/
theorem ebbing_turn (hzero : ∀ w, ∃ v, env.wake (env.now w) w = some v) (hst : st.Suspends)
    {s : State ε} {p : Progress (State ε) (Recording ω (Deed ε))} (ht : Turn b env s (w, l) p)
    (h : Ebbing b d st k s l) :
    Ebbing b d st k p.state p.world.2 ∧
      (s.result? = none → p.moved = true ∧ p.state.phase.remaining < s.phase.remaining) := by
  cases h with
  | passed hm hk =>
    obtain ⟨he, hmoved, hr⟩ := ebbing_poll hzero hst ht hm
    refine ⟨hk ▸ he, fun _ => ⟨hmoved, ?_⟩⟩
    cases st with
    | attempting | pausing due => exact hr
    | ready | refused | ended => exact False.elim hst
  | refused hm hk hl =>
    cases ht with
    | last ha =>
      cases ha with
      | stop => exact ⟨.closing hk hl, fun _ => ⟨rfl, (by decide : 1 < 2)⟩⟩
      | draw hc => exact absurd hc (cancelled_ne_false hm _)
    | linger ha | giveUp ha => exact absurd rfl ha.ne_refused_of_waiting
  | @closing m due _ x hk hl =>
    cases ht with
    | close =>
      refine ⟨?_, fun _ => ⟨rfl, (by decide : 0 < 1)⟩⟩
      by_cases hx : x = .ok ()
      · subst hx
        exact .connected hl
      · obtain rfl := hl.eq_of_ne_ok hx
        subst hk
        exact .told hl
  | connected hl =>
    cases ht with
    | rest => exact ⟨.connected hl, nofun⟩
  | told hl =>
    cases ht with
    | rest => exact ⟨.told hl, nofun⟩

theorem step_of_result {s : State ε} {x : Except (CampaignFailure ε) Unit}
    (hx : s.result? = some x) (r : Recording ω (Deed ε)) :
    State.step b.recorded env.recorded s r = .waiting s r := by
  obtain ⟨m, ph, limit⟩ := s
  cases ph with
  | finished y => rfl
  | running st | expiring st | closing y => cases hx

/-- A campaign past its deadline that is left alone has ended after so many steps, and no time
has passed. -/
theorem settle_ebbing (hzero : ∀ w, ∃ v, env.wake (env.now w) w = some v)
    (hstill : ∀ t, Keeps b env fun w => env.now w = t) (hst : st.Suspends) {s : State ε}
    {r : Recording ω (Deed ε)} (h : Ebbing b d st k s r.2) {n : Nat}
    (hn : s.phase.remaining < n) :
    ∃ s' q x, settle (State.step b.recorded env.recorded) n s r = some (s', q) ∧
      s'.result? = some x ∧ Ebbing b d st k s' q.2 ∧ env.now q.1 = env.now r.1 := by
  induction n generalizing s r with
  | zero => exact absurd hn (Nat.not_lt_zero _)
  | succ n ih =>
    cases hx : s.result? with
    | some x =>
      refine ⟨s, r, x, ?_, hx, h, rfl⟩
      rw [settle, step_of_result hx]
      rfl
    | none =>
      have ht := turn_step b env s r
      obtain ⟨he, hmoved⟩ := ebbing_turn hzero hst ht h
      obtain ⟨hm, hlt⟩ := hmoved hx
      have hnow := keeps_turn (hstill (env.now r.1)) ht rfl
      -- this step is one of those that remained
      obtain ⟨s', q, x, hs, hx', he', ht'⟩ := ih he (by omega)
      refine ⟨s', q, x, ?_, hx', he', ht'.trans hnow⟩
      rw [settle]
      simp only [hm, if_true]
      exact hs

end Turn

section Run

variable {b : Brief ω ε} {env : Surroundings ω ε} {d : Duration} {st : Stage Unit ε} {k : UInt32}

/-- Until it ends, a campaign past its deadline stays at the instant at which that has passed. -/
theorem ebbing_run (hzero : ∀ w, ∃ v, env.wake (env.now w) w = some v)
    (hstill : ∀ t, Keeps b env fun w => env.now w = t) {drift : State ε → ω → ω → Prop}
    (hdrift : Prompt b env drift) (hst : st.Suspends) {s s' : State ε} {w : ω}
    {r : Recording ω (Deed ε)} (h : Ebbing b d st k s [])
    (run : Run (State.step b.recorded env.recorded) (Recording.drift drift) s (w, []) s' r) :
    Ebbing b d st k s' r.2 ∧ (s'.result? = none → env.now r.1 = env.now w) := by
  induction run with
  | refl => exact ⟨h, fun _ => rfl⟩
  | @step t v _ ih =>
    have ht := turn_step b env t v
    refine ⟨(ebbing_turn hzero hst ht ih.1).1, fun hx => ?_⟩
    have hnow := keeps_turn (hstill (env.now v.1)) ht rfl
    cases hy : t.result? with
    | none => exact hnow.trans (ih.2 hy)
    | some x =>
      rw [step_of_result hy] at hx
      cases hy.symm.trans hx
  | @drift t v u _ hu ih =>
    refine ⟨hu.2 ▸ ih.1, fun hx => ?_⟩
    -- until it has ended the campaign can go on, so the clock stands still
    have hmoved : (State.step b env t v.1).moved = true := by
      rw [step_recorded b env t v]
      exact ((ebbing_turn hzero hst (turn_step b env t v) ih.1).2 hx).1
    exact (hdrift t v.1 u.1 hu.1 hmoved).trans (ih.2 hx)

theorem deadline_of_campaignDeadline {s : Settings} {d : Duration}
    (h : s.campaignDeadline = some d) : s.deadline = d := by
  unfold Settings.campaignDeadline at h
  split at h
  · cases h
  · exact Option.some.inj h

/-- The deadline passes while the run of a campaign is paused or has an attempt in flight, and
nothing has been said of it before. -/
theorem ebbing_of_fires {drift : State ε → ω → ω → Prop} {now : Nat} {u w : ω} {s t : State ε}
    {r : Recording ω (Deed ε)} {l : Record ω ε}
    (run : Run (State.step b.recorded env.recorded) (Recording.drift drift) (.begin b now) (u, [])
      s r) (hs : s.phase = .running st)
    (fires : State.step b.recorded env.recorded s r = .moving t (w, l))
    (ht : t.phase = .expiring st) :
    st.Suspends ∧ Ebbing b b.settings.deadline st (.ofNat (begun l)) t [] ∧
      Ongoing (notices l) := by
  have hturn := turn_step b env s r
  have hcount := counts_turn hturn (counts_run run)
  have hlimit := (limit_turn hturn).trans (limit_run run)
  have htold := told_turn hturn (told_run run)
  have hrun := told_run run
  obtain ⟨m₀, ph, limit⟩ := s
  cases hs
  rw [fires] at hturn hcount hlimit htold
  have ht' : (Progress.moving t (w, l)).state.phase = .expiring st := ht
  rw [ht'] at htold
  -- only where the run waits is the timer looked at
  cases hturn with
  | @run _ _ _ st' => cases st' <;> cases ht
  | @expire _ m' _ _ due d _ q u ha hw =>
    have hd : b.settings.deadline = d := by
      cases hb : b.settings.campaignDeadline with
      | none => rw [hb] at hlimit; cases hlimit
      | some d' =>
        rw [hb] at hlimit
        cases hlimit
        exact deadline_of_campaignDeadline hb
    refine ⟨?_, hd ▸ .passed rfl hcount, htold.2.ongoing⟩
    cases ha with
    | pend | sleep => trivial
    | rest => cases hrun.1

end Run

/-- What becomes of a campaign whose deadline passes while its run stands at `st`: it has noted
`l` by then and notes `l'` from then on, and it returns `x`. -/
structure Expired (b : Brief ω ε) (st : Stage Unit ε) (l l' : Record ω ε)
    (x : Except (CampaignFailure ε) Unit) : Prop where
  /-- No attempt begins, no delay is drawn and no pause is announced. -/
  quiet : ∀ e ∈ l', e.deed.isWork = false
  /-- An attempt in flight is polled once more, and sees that it is cancelled. -/
  polls : st = .attempting ∧ (∃ reply, polls l' = [(true, reply)]) ∨
    (∃ due, st = .pausing due) ∧ polls l' = []
  ok_iff : x = .ok () ↔ ∃ own, Campaign.polls l' = [(true, ⟨some (.ok ()), own⟩)]
  eq_of_ne_ok : x ≠ .ok () → x = .error (.deadlineExceeded b.settings.deadline)
  /-- The deadline is told once, and nothing follows. -/
  told : x ≠ .ok () → ∃ front w v,
    l' = front ++ [⟨.published (b.expiry b.settings.deadline (.ofNat (begun l))), w, v⟩] ∧
    ∀ n ∈ notices (l ++ front), n.kind ≠ .deadlineExceeded

theorem Ebbing.expired {b : Brief ω ε} {st : Stage Unit ε} {s : State ε} {l l' : Record ω ε}
    {x : Except (CampaignFailure ε) Unit}
    (h : Ebbing b b.settings.deadline st (.ofNat (begun l)) s l') (hx : s.result? = some x)
    (hl : Ongoing (notices l)) : Expired b st l l' x := by
  cases h with
  | passed | refused | closing => cases hx
  | connected hp =>
    obtain rfl := Option.some.inj hx
    exact ⟨hp.quiet, hp.polls_eq, hp.ok_iff, hp.eq_of_ne_ok, fun hne => absurd rfl hne⟩
  | @told _ _ l₀ w v hp =>
    obtain rfl := Option.some.inj hx
    have hpolls : polls (l₀ ++ [⟨.published (b.expiry b.settings.deadline (.ofNat (begun l))),
        w, v⟩]) = polls l₀ := by simp [Deed.poll?]
    refine ⟨?_, hpolls ▸ hp.polls_eq, hpolls ▸ hp.ok_iff, fun _ => rfl, fun _ => ?_⟩
    · intro e he
      rcases List.mem_append.mp he with he | he
      · exact hp.quiet e he
      · obtain rfl := List.mem_singleton.mp he
        rfl
    · refine ⟨l₀, w, v, rfl, fun n hn => ?_⟩
      rw [notices, List.filterMap_append] at hn
      rcases List.mem_append.mp hn with hn | hn
      · intro hk
        have hopen := hl n hn
        rw [hk] at hopen
        cases hopen
      · exact hp.kind_ne n hn

/-- A campaign whose deadline passes returns at that instant, wherever its run then is and
whatever its attempt does: left alone, it has ended after four more steps, with success if the
last poll connects and with the deadline otherwise. -/
theorem run_expired {b : Brief ω ε} {env : Surroundings ω ε}
    (hzero : ∀ w, ∃ v, env.wake (env.now w) w = some v)
    (hstill : ∀ t, Keeps b env fun w => env.now w = t)
    {drift drift' : State ε → ω → ω → Prop} (hprompt : Prompt b env drift') {now : Nat}
    {u w v : ω} {s t s' : State ε} {st : Stage Unit ε} {r : Recording ω (Deed ε)}
    {l l' : Record ω ε}
    (before : Run (State.step b.recorded env.recorded) (Recording.drift drift) (.begin b now)
      (u, []) s r)
    (hs : s.phase = .running st)
    (fires : State.step b.recorded env.recorded s r = .moving t (w, l))
    (ht : t.phase = .expiring st)
    (after : Run (State.step b.recorded env.recorded) (Recording.drift drift') t (w, []) s'
      (v, l')) :
    (s'.result? = none → env.now v = env.now w) ∧
      ∃ s'' v' l'' x, settle (State.step b.recorded env.recorded) 4 s' (v, l') =
          some (s'', (v', l'')) ∧
        s''.result? = some x ∧ env.now v' = env.now v ∧ Expired b st l l'' x := by
  obtain ⟨hst, he, hl⟩ := ebbing_of_fires before hs fires ht
  obtain ⟨he', hnow⟩ := ebbing_run hzero hstill hprompt hst he after
  have hfour : s'.phase.remaining < 4 := by
    obtain ⟨m, ph, limit⟩ := s'
    cases ph with
    | expiring st =>
      cases st with
      | refused => exact (by decide : 2 < 4)
      | ready | attempting | pausing due | ended x => exact (by decide : 3 < 4)
    | closing x => exact (by decide : 1 < 4)
    | running st | finished x => exact (by decide : 0 < 4)
  obtain ⟨s'', q, x, hs'', hx, he'', hv⟩ := settle_ebbing hzero hstill hst he' hfour
  exact ⟨hnow, s'', q.1, q.2, x, hs'', hx, hv, he''.expired hx hl⟩

/-- The surroundings of a rehearsal in which any number of waits may end at one instant. -/
def untiring : Surroundings (Rehearsal.World Unit String) String :=
  { Rehearsal.surroundings 0 with wake := fun due w => if due ≤ w.clock then some w else none }

theorem clock_untiring {due : Nat} {w v : Rehearsal.World Unit String}
    (h : untiring.wake due w = some v) : v.clock = w.clock := by
  unfold untiring at h
  by_cases hd : due ≤ w.clock
  · rw [Option.some.inj ((if_pos hd).symm.trans h)]
  · cases (if_neg hd).symm.trans h

theorem run_expired_stubborn : ∃ s r t w l,
    Run (State.step stubborn.recorded untiring.recorded) (Recording.drift fun _ _ _ => True)
      (.begin stubborn 0) (stubbornWorld, []) s r ∧
    s.phase = .running .attempting ∧
    State.step stubborn.recorded untiring.recorded s r = .moving t (w, l) ∧
    t.phase = .expiring .attempting ∧
    ∃ s' v l', settle (State.step stubborn.recorded untiring.recorded) 4 t (w, []) =
        some (s', (v, l')) ∧
      s'.result? = some (.error (.deadlineExceeded (.ofSecs 2))) ∧ untiring.now v = 2000 ∧
      Expired stubborn .attempting l l' (.error (.deadlineExceeded (.ofSecs 2))) := by
  have before {s q} (run : Run (State.step stubborn.recorded untiring.recorded)
      (Recording.drift fun _ _ _ => True) (.begin stubborn 0) (stubbornWorld, []) s q) :=
    run.drift (u := ({ q.1 with clock := 2000 }, q.2)) ⟨trivial, rfl⟩
  have run := before (Run.refl.settle (n := 9) rfl)
  have hzero (w : Rehearsal.World Unit String) : ∃ v, untiring.wake (untiring.now w) w = some v :=
    ⟨w, if_pos (Nat.le_refl w.clock)⟩
  have hstill (t : Nat) : Keeps stubborn untiring fun w => untiring.now w = t :=
    keeps_clock rfl 0 (fun _ _ _ => clock_untiring) (· = t)
  have hprompt : Prompt stubborn untiring fun _ u v => v.clock = u.clock := fun _ _ _ h _ => h
  obtain ⟨-, s', v, l', x, hs, hx, hv, he⟩ :=
    run_expired hzero hstill hprompt run rfl rfl rfl .refl
  have hresult : some (some (.error (.deadlineExceeded (.ofSecs 2)))) = some s'.result? :=
    congrArg (Option.map fun p : State String × _ => p.1.result?) hs
  obtain rfl := Option.some.inj ((Option.some.inj hresult).trans hx)
  exact ⟨_, _, _, _, _, run, rfl, rfl, rfl, s', v, l', hs, hx, hv, he⟩

end Reattempt.Campaign
