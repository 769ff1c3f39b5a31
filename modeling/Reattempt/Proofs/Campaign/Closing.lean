import Reattempt.Proofs.Campaign.Turn
import Reattempt.Rehearsal.Job

/-!
# How a campaign closes

A campaign that returns has published one notice that says it is over, the last
one, and that notice agrees with the result. There is one exception: an attempt
that fails for good in the last poll, when the deadline has passed, is published
as the end of the campaign, and the deadline is published after it. Surroundings
may do anything, at any time.
-/

namespace Reattempt.Campaign

open Executor (Stage)

variable {ω ε : Type}

/-- An answer that ends an attempt with an error that is not retryable. -/
def Reply.isFatal (b : Brief ω ε) : Reply ε → Bool
  | ⟨some (.error e), _⟩ => !b.connector.retryable e
  | _ => false

def Deed.isFatal (b : Brief ω ε) : Deed ε → Bool
  | .polled _ reply => reply.isFatal b
  | _ => false

/-- Some attempt has failed for good. -/
def Failed (b : Brief ω ε) (l : Record ω ε) : Prop := ∃ x ∈ l, x.deed.isFatal b = true

@[simp] theorem failed_concat (b : Brief ω ε) (l : Record ω ε) (x : Entry ω (Deed ε)) :
    Failed b (l ++ [x]) ↔ Failed b l ∨ x.deed.isFatal b = true := by
  simp [Failed, or_and_right, exists_or]

/-- The notice says that a campaign is over, and with which result. -/
def Tells (b : Brief ω ε) (n : Notice) : Except (CampaignFailure ε) Unit → Prop
  | .ok () => n.kind = .connected
  | .error (.fatal e) => n.kind = .connectFailed ∧ n.reason = some (b.connector.text e)
  | .error .canceled => n.kind = .canceled
  | .error (.deadlineExceeded _) => n.kind = .deadlineExceeded

theorem Tells.isTerminal {b : Brief ω ε} {n : Notice} {x : Except (CampaignFailure ε) Unit}
    (h : Tells b n x) : n.kind.isTerminal = true := by
  match x with
  | .ok () => rw [show n.kind = .connected from h]; rfl
  | .error (.fatal e) => rw [h.1]; rfl
  | .error .canceled => rw [show n.kind = .canceled from h]; rfl
  | .error (.deadlineExceeded _) => rw [show n.kind = .deadlineExceeded from h]; rfl

/-- None of these says that a campaign is over. -/
def Ongoing (ns : List Notice) : Prop := ∀ n ∈ ns, n.kind.isTerminal = false

/-- The last of these notices, and no other, says that the campaign is over, and it agrees
with the result. -/
def Closes (b : Brief ω ε) (ns : List Notice) (x : Except (CampaignFailure ε) Unit) : Prop :=
  ∃ front n, ns = front ++ [n] ∧ Ongoing front ∧ Tells b n x

/-- The last two say that it is over, the first of them because of an error. -/
def ClosesTwice (b : Brief ω ε) (ns : List Notice) (x : Except (CampaignFailure ε) Unit) : Prop :=
  ∃ front n k e, ns = front ++ [n, k] ∧ Ongoing front ∧ Tells b n (.error (.fatal e)) ∧ Tells b k x

theorem ClosesTwice.not_closes {b : Brief ω ε} {ns : List Notice}
    {x : Except (CampaignFailure ε) Unit} (h : ClosesTwice b ns x) : ¬ Closes b ns x := by
  obtain ⟨front, n, k, e, rfl, -, hn, -⟩ := h
  rintro ⟨front', k', heq, hfront', -⟩
  rw [← List.singleton_append, ← List.append_assoc] at heq
  obtain ⟨rfl, -⟩ := List.append_inj' heq rfl
  have hopen := hfront' n (by simp)
  rw [hn.isTerminal] at hopen
  cases hopen

/-- A campaign that has not said that it is over, and in which no attempt has failed for
good. -/
structure Open (b : Brief ω ε) (l : Record ω ε) : Prop where
  ongoing : Ongoing (notices l)
  unfailed : ¬ Failed b l

theorem notices_publish (env : Surroundings ω ε) (n : Notice) (r : Recording ω (Deed ε)) :
    notices (env.recorded.publish n r).2 = notices r.2 ++ [n] := notices_concat _ _

theorem failed_publish (b : Brief ω ε) (env : Surroundings ω ε) (n : Notice)
    (r : Recording ω (Deed ε)) : Failed b (env.recorded.publish n r).2 ↔ Failed b r.2 := by
  rw [show (env.recorded.publish n r).2 = r.2 ++ [_] from rfl, failed_concat]
  simp [Deed.isFatal]

theorem Open.concat {b : Brief ω ε} {l : Record ω ε} (hl : Open b l) {x : Entry ω (Deed ε)}
    (hn : x.deed.notice? = none) (hx : x.deed.isFatal b = false) : Open b (l ++ [x]) := by
  refine ⟨?_, ?_⟩
  · simpa [hn] using hl.ongoing
  · simpa [hx] using hl.unfailed

theorem Open.polled {b : Brief ω ε} {env : Surroundings ω ε} {m : Memory}
    {r q : Recording ω (Deed ε)} {reply : Reply ε} (hr : Open b r.2)
    (hp : Polled env m r reply q) (hx : reply.isFatal b = false) : Open b q.2 := by
  rw [hp.noted]
  exact hr.concat rfl hx

theorem Open.publish {b : Brief ω ε} {r : Recording ω (Deed ε)} (hr : Open b r.2)
    (env : Surroundings ω ε) {n : Notice} (hn : n.kind.isTerminal = false) :
    Open b (env.recorded.publish n r).2 := by
  refine ⟨?_, mt (failed_publish b env n r).mp hr.unfailed⟩
  rw [notices_publish]
  intro k hk
  rcases List.mem_append.mp hk with hk | hk
  · exact hr.ongoing k hk
  · rwa [List.mem_singleton.mp hk]

theorem closes_publish {b : Brief ω ε} {r : Recording ω (Deed ε)} (hr : Ongoing (notices r.2))
    (env : Surroundings ω ε) {n : Notice} {x : Except (CampaignFailure ε) Unit}
    (hn : Tells b n x) : Closes b (notices (env.recorded.publish n r).2) x :=
  ⟨_, n, notices_publish env n r, hr, hn⟩

/-- What has been said by the time the run inside a campaign stands at a stage. -/
def Said (b : Brief ω ε) (l : Record ω ε) : Stage Unit ε → Prop
  | .ended (.ok ()) => Closes b (notices l) (.ok ()) ∧ ¬ Failed b l
  | .ended (.error (.fatal e)) => Closes b (notices l) (.error (.fatal e)) ∧ Failed b l
  | .ended (.error (.deadlineExceeded _)) => False
  | _ => Open b l

theorem Said.open {b : Brief ω ε} {l : Record ω ε} {st : Stage Unit ε} (h : Said b l st)
    (hst : st.result? = none) : Open b l := by
  cases st with
  | ready | attempting | refused | pausing due => exact h
  | ended x => cases hst

/-- As long as nothing has ended it, a run says that it is over only with the step that ends
it, and a run that is canceled leaves that to the campaign. -/
theorem said_act {b : Brief ω ε} {env : Surroundings ω ε} {st : Stage Unit ε} {m : Memory}
    {r : Recording ω (Deed ε)} {p : Progress (Stage Unit ε) (Memory × Recording ω (Deed ε))}
    (ha : Act b env st m r p) (hst : st.result? = none) (hr : Open b r.2) :
    Said b p.world.2.2 p.state := by
  cases ha with
  | stop | wake | sleep => exact hr
  | begin =>
    refine Open.publish ?_ env rfl
    exact hr.concat (x := ⟨.began, _, _⟩) rfl rfl
  | pend hp => exact hr.polled hp rfl
  | connect hp =>
    have hq := hr.polled hp rfl
    exact ⟨closes_publish hq.ongoing env rfl, mt (failed_publish b env _ _).mp hq.unfailed⟩
  | @fail _ _ q e _ hp he =>
    have hq : notices q.2 = notices r.2 := by rw [hp.noted]; simp [Recording.note, Deed.notice?]
    have hf : Failed b q.2 := by
      rw [hp.noted]
      simp [Recording.note, Deed.isFatal, Reply.isFatal, he]
    exact ⟨closes_publish (hq ▸ hr.ongoing) env ⟨rfl, rfl⟩, (failed_publish b env _ _).mpr hf⟩
  | hush hp he => exact hr.polled hp (by simp [Reply.isFatal, he])
  | @announce _ _ m₂ _ q e _ d s _ u₂ hp he =>
    have hq : Open b q.2 := hr.polled hp (by simp [Reply.isFatal, he])
    exact Open.publish (r := q.goOn u₂) (n := b.announcement m₂ d s e) hq env rfl
  | @draw _ _ _ d u => exact hr.concat (x := ⟨.drew d, u, env.pause d u⟩) rfl rfl
  | rest => cases hst

/-- The exception: the deadline has passed, and some attempt has failed for good. -/
def LateFailure (b : Brief ω ε) (l : Record ω ε) (x : Except (CampaignFailure ε) Unit) : Prop :=
  (∃ d, x = .error (.deadlineExceeded d)) ∧ Failed b l

/-- What has been said by the time a campaign is in a phase. -/
def Told (b : Brief ω ε) (l : Record ω ε) : Phase ε → Prop
  | .running st | .expiring st => st.result? = none ∧ Open b l
  | .closing (.error (.deadlineExceeded _)) =>
    Open b l ∨ ∃ e, Closes b (notices l) (.error (.fatal e)) ∧ Failed b l
  | .closing x => Said b l (.ended x)
  | .finished x =>
    Closes b (notices l) x ∧ ¬ LateFailure b l x ∨ ClosesTwice b (notices l) x ∧ LateFailure b l x

theorem told_runAt {b : Brief ω ε} {l : Record ω ε} {s : State ε} {st : Stage Unit ε}
    (h : Said b l st) : Told b l (s.runAt st).phase := by
  cases st with
  | ended x =>
    match x with
    | .ok () | .error (.fatal _) | .error .canceled => exact h
    | .error (.deadlineExceeded _) => exact False.elim h
  | ready | attempting | refused | pausing due => exact ⟨rfl, h⟩

theorem told_expireAt {b : Brief ω ε} {l : Record ω ε} {s : State ε} {st : Stage Unit ε}
    (h : Said b l st) : Told b l (s.expireAt st).phase := by
  cases st with
  | ended x =>
    match x with
    | .ok () => exact h
    | .error (.fatal e) => exact .inr ⟨e, h⟩
    | .error .canceled => exact .inl h
    | .error (.deadlineExceeded _) => exact False.elim h
  | ready | attempting | refused | pausing due => exact ⟨rfl, h⟩

theorem Closes.closesTwice {b : Brief ω ε} {env : Surroundings ω ε} {r : Recording ω (Deed ε)}
    {e : ε} {n : Notice} {x : Except (CampaignFailure ε) Unit}
    (h : Closes b (notices r.2) (.error (.fatal e))) (hn : Tells b n x) :
    ClosesTwice b (notices (env.recorded.publish n r).2) x := by
  obtain ⟨front, k, hk, hfront, hf⟩ := h
  exact ⟨front, k, n, e, by simp [notices_publish, hk], hfront, hf, hn⟩

/-- The closing step publishes what no attempt has published yet. -/
theorem told_close {b : Brief ω ε} {env : Surroundings ω ε} {m : Memory}
    {x : Except (CampaignFailure ε) Unit} {r : Recording ω (Deed ε)}
    (h : Told b r.2 (.closing x)) :
    Told b ((State.closingNotice b m x).elim r fun n => env.recorded.publish n r).2
      (.finished x) := by
  match x with
  | .ok () => exact .inl ⟨h.1, by rintro ⟨⟨d, hd⟩, -⟩; cases hd⟩
  | .error (.fatal e) => exact .inl ⟨h.1, by rintro ⟨⟨d, hd⟩, -⟩; cases hd⟩
  | .error .canceled =>
    have ho : Open b r.2 := h
    refine .inl ⟨closes_publish ho.ongoing env rfl, ?_⟩
    rintro ⟨⟨d, hd⟩, -⟩
    cases hd
  | .error (.deadlineExceeded d) =>
    rcases h with ho | ⟨e, hc, hf⟩
    · refine .inl ⟨closes_publish ho.ongoing env rfl, ?_⟩
      rintro ⟨-, hf⟩
      exact ho.unfailed ((failed_publish b env _ r).mp hf)
    · -- the attempt of the last poll has spoken before the deadline does
      exact .inr ⟨hc.closesTwice rfl, ⟨d, rfl⟩, (failed_publish b env _ r).mpr hf⟩

theorem told_turn {b : Brief ω ε} {env : Surroundings ω ε} {s : State ε}
    {r : Recording ω (Deed ε)} {p : Progress (State ε) (Recording ω (Deed ε))}
    (ht : Turn b env s r p) (h : Told b r.2 s.phase) : Told b p.world.2 p.state.phase := by
  -- a run that waits has not ended
  have waits {st st' : Stage Unit ε} {m m' : Memory} {q : Recording ω (Deed ε)}
      (ha : Act b env st m r (.waiting st' (m', q))) (h : st.result? = none ∧ Open b r.2) :
      st.result? = none ∧ Open b q.2 := by
    have hs := said_act ha h.1 h.2
    rw [ha.eq_of_waiting] at hs
    exact ⟨h.1, hs.open h.1⟩
  cases ht with
  | run ha => exact told_runAt (said_act ha h.1 h.2)
  | stay ha | linger ha => exact waits ha h
  | expire ha =>
    have hq := waits ha h
    exact hq
  | last ha => exact told_expireAt (said_act ha h.1 h.2)
  | giveUp ha => exact .inl (waits ha h).2
  | close => exact told_close h
  | rest => exact h

theorem told_run {b : Brief ω ε} {env : Surroundings ω ε} {drift : State ε → ω → ω → Prop}
    {now : Nat} {w : ω} {s : State ε} {r : Recording ω (Deed ε)}
    (run : Run (State.step b.recorded env.recorded) (Recording.drift drift) (.begin b now) (w, [])
      s r) : Told b r.2 s.phase := by
  induction run with
  | refl => exact ⟨rfl, nofun, by rintro ⟨x, hx, -⟩; cases hx⟩
  | step _ ih => exact told_turn (turn_step b env _ _) ih
  | drift _ hu ih => exact hu.2 ▸ ih

/-- A campaign that has returned `x` has closed with one last notice that agrees with `x`, in
all cases but one: where an attempt failed for good after the deadline had passed, it has closed
twice. -/
theorem closes_iff {b : Brief ω ε} {env : Surroundings ω ε} {drift : State ε → ω → ω → Prop}
    {now : Nat} {w v : ω} {s : State ε} {l : Record ω ε} {x : Except (CampaignFailure ε) Unit}
    (run : Run (State.step b.recorded env.recorded) (Recording.drift drift) (.begin b now) (w, [])
      s (v, l)) (hx : s.result? = some x) :
    (Closes b (notices l) x ↔ ¬ LateFailure b l x) ∧
    (LateFailure b l x → ClosesTwice b (notices l) x) := by
  have ht := told_run run
  obtain ⟨m, ph, limit⟩ := s
  cases ph with
  | finished y =>
    obtain rfl := Option.some.inj hx
    rcases ht with ⟨hc, hl⟩ | ⟨hc, hl⟩
    · exact ⟨iff_of_true hc hl, fun h => absurd h hl⟩
    · exact ⟨iff_of_false hc.not_closes (not_not_intro hl), fun _ => hc⟩
  | running st | expiring st | closing y => cases hx

/-- A campaign whose connector waits to be cancelled and then fails for good. -/
def stubborn : Brief (Rehearsal.World Unit String) String where
  connector := ⟨"stubborn", (· == "refused"), id⟩
  settings := Settings.standard.withDeadline (.ofSecs 2)
  shared := none

def stubbornWorld : Rehearsal.World Unit String :=
  .initial
    [{ name := "stubborn", ownToken := false, audience := .recorder "log", calls := 0,
       flight := none
       script := ⟨[], ⟨.forever, some (.failed "denied" false), none, .ok ()⟩⟩ }] none

theorem closes_iff_stubborn : ∃ s v l,
    Run (State.step stubborn.recorded (Rehearsal.surroundings 0).recorded)
      (Recording.drift fun _ _ _ => True) (.begin stubborn 0) (stubbornWorld, []) s (v, l) ∧
    s.result? = some (.error (.deadlineExceeded (.ofSecs 2))) ∧
    LateFailure stubborn l (.error (.deadlineExceeded (.ofSecs 2))) ∧
    ¬ Closes stubborn (notices l) (.error (.deadlineExceeded (.ofSecs 2))) := by
  have wait {s q} (run : Run (State.step stubborn.recorded (Rehearsal.surroundings 0).recorded)
      (Recording.drift fun _ _ _ => True) (.begin stubborn 0) (stubbornWorld, []) s q) :=
    run.drift (u := ({ q.1 with clock := 2000 }, q.2)) ⟨trivial, rfl⟩
  have run := (wait (Run.refl.settle (n := 9) rfl)).settle (n := 9) rfl
  refine ⟨_, _, _, run, rfl, ?late, fun hc => (closes_iff run rfl).1.mp hc ?late⟩
  exact ⟨⟨_, rfl⟩, List.any_eq_true.mp rfl⟩

end Reattempt.Campaign
