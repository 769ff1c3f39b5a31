import Reattempt.Proofs.Backoff.Sharing
import Reattempt.Proofs.Campaign.Bare

/-!
# Campaigns whose generator is shared further

A campaign asks its generator for the whole seconds in one place, when it announces a
pause. So behind further layers it takes the same course up to the first announcement
whose seconds are not those of its delay, and there it announces something else. What
the listeners do is left open, but looking ahead is to leave the generator alone.
-/

namespace Reattempt

/-- An announcement tells the whole seconds of its delay. -/
def Notice.Candid (n : Notice) : Prop :=
  n.kind = .backoffScheduled → n.retryInSeconds = n.delay.map Duration.secs

instance (n : Notice) : Decidable n.Candid := inferInstanceAs (Decidable (_ → _))

namespace Campaign

open Backoff (Source)
open Executor (Stage)

variable {ω ε : Type}

/-- The same campaigns with a generator that they share. -/
def Brief.given (b : Brief ω ε) (src : Source ω) : Brief ω ε := { b with shared := some src }

section Step

variable {b : Brief ω ε} {env : Surroundings ω ε} {src : Source ω}

/-- A pause has just been announced that does not tell the seconds of its delay. -/
def Brief.Misstates (b : Brief ω ε) (env : Surroundings ω ε) (w : ω) : Prop :=
  ∃ m d s e v, w = env.publish (b.announcement m d s e) v ∧ s ≠ d.secs

theorem peek_given (b : Brief ω ε) (hsrc : ReadOnly src) (m : Memory) (w : ω) :
    (b.given src).peek (m, w) = ((src.peek w).1, m, w) := by
  rw [Brief.peek_of_shared rfl, hsrc.peek]

theorem peekSeconds_given (b : Brief ω ε) (hsrc : ReadOnly src) (m : Memory) (w : ω) :
    (b.given src).peekSeconds (m, w) = ((src.peekSeconds w).1, m, w) := by
  rw [Brief.peekSeconds_of_shared rfl, hsrc.peekSeconds]

theorem readOnly_share (hsrc : ReadOnly src) : ReadOnly src.share := ⟨hsrc.peek, hsrc.peek⟩

theorem announceBackoff_share (b : Brief ω ε) (env : Surroundings ω ε) (hsrc : ReadOnly src)
    (e : ε) (m : Memory) (w : ω) :
    (b.given src.share).announceBackoff env e (m, w) =
        (b.given src).announceBackoff env e (m, w) ∨
      b.Misstates env ((b.given src).announceBackoff env e (m, w)).2 := by
  cases hc : lost env m w with
  | true =>
    left
    rw [Brief.announceBackoff_of_lost hc, Brief.announceBackoff_of_lost hc]
  | false =>
    have hshare := readOnly_share hsrc
    rw [Brief.announceBackoff_of_not_lost hc (peek_given b hsrc m w) (peekSeconds_given b hsrc m w),
      Brief.announceBackoff_of_not_lost hc (peek_given b hshare m w)
        (peekSeconds_given b hshare m w)]
    by_cases hcandid : (src.peekSeconds w).1 = (src.peek w).1.secs
    · left
      rw [hcandid]
      rfl
    · exact .inr ⟨m, _, _, e, w, rfl, hcandid⟩

theorem poll_share (b : Brief ω ε) (env : Surroundings ω ε) (hsrc : ReadOnly src) (m : Memory)
    (w : ω) : (b.given src.share).poll env (m, w) = (b.given src).poll env (m, w) ∨
      ∃ a m' v, (b.given src).poll env (m, w) = (some a, m', v) ∧ b.Misstates env v := by
  rcases hp : env.poll (Brief.cancelled env (m, w) || m.severed) w with ⟨⟨outcome, own⟩, v⟩
  match outcome with
  | none =>
    left
    rw [Brief.poll_of_pending hp, Brief.poll_of_pending hp]
  | some (.ok ()) =>
    left
    rw [Brief.poll_of_outcome hp, Brief.poll_of_outcome hp]
    rfl
  | some (.error e) =>
    rw [Brief.poll_of_outcome hp, Brief.poll_of_outcome hp]
    cases he : b.connector.retryable e with
    | false =>
      left
      rw [Brief.conclude_of_fatal (b := b.given src) he,
        Brief.conclude_of_fatal (b := b.given src.share) he]
      rfl
    | true =>
      rw [Brief.conclude_of_transient (b := b.given src) he,
        Brief.conclude_of_transient (b := b.given src.share) he]
      rcases announceBackoff_share b env hsrc e (m.heard own) v with heq | hmisstates
      · left
        rw [heq]
      · exact .inr ⟨_, _, _, rfl, hmisstates⟩

theorem run_share (b : Brief ω ε) (env : Surroundings ω ε) (hsrc : ReadOnly src)
    (st : Stage Unit ε) (m : Memory) (w : ω) :
    Executor.step ((b.given src.share).host env) st (m, w) =
        Executor.step ((b.given src).host env) st (m, w) ∨
      ∃ st' m' v, Executor.step ((b.given src).host env) st (m, w) = .moving st' (m', v) ∧
        b.Misstates env v := by
  cases st with
  | ready | refused | pausing due | ended x => exact .inl rfl
  | attempting =>
    rcases poll_share b env hsrc m w with heq | ⟨a, m', v, hp, hmisstates⟩
    · left
      have hpoll : ((b.given src.share).host env).poll (m, w) =
          ((b.given src).host env).poll (m, w) := heq
      simp only [Executor.step, hpoll]
    · exact .inr ⟨_, m', v, Executor.step_of_answer hp, hmisstates⟩

/-- A step is the same behind a layer more, or it announces the wrong seconds. -/
theorem step_share (b : Brief ω ε) (env : Surroundings ω ε) (hsrc : ReadOnly src) (x : State ε)
    (w : ω) : State.step (b.given src.share) env x w = State.step (b.given src) env x w ∨
      b.Misstates env (State.step (b.given src) env x w).world := by
  obtain ⟨m, ph, limit⟩ := x
  cases ph with
  | running st =>
    rcases run_share b env hsrc st m w with heq | ⟨st', m', v, hmoving, hmisstates⟩
    · left
      simp only [State.step, State.run, heq]
      rfl
    · right
      rw [step_running_of_moving hmoving]
      exact hmisstates
  | expiring st =>
    rcases run_share b env hsrc st m w with heq | ⟨st', m', v, hmoving, hmisstates⟩
    · left
      simp only [State.step, State.run, heq]
      rfl
    · right
      rw [step_expiring_of_moving hmoving]
      exact hmisstates
  | closing x => exact .inl rfl
  | finished x => exact .inl rfl

end Step

/-! ## Candid records -/

/-- All that was announced tells the whole seconds of its delay. -/
def Candid (l : Record ω ε) : Prop := ∀ n ∈ notices l, n.Candid

instance (l : Record ω ε) : Decidable (Candid l) := inferInstanceAs (Decidable (∀ n ∈ _, _))

section Candid

variable {b : Brief ω ε} {env : Surroundings ω ε} {src : Source ω} {r q : Recording ω (Deed ε)}

theorem candid_concat {l : Record ω ε} {x : Entry ω (Deed ε)} :
    Candid (l ++ [x]) ↔ Candid l ∧ ∀ n ∈ x.deed.notice?, n.Candid := by
  simp [Candid, or_imp, forall_and]

/-- What announces nothing misstates nothing. -/
theorem candid_silent {l : Record ω ε} {x : Entry ω (Deed ε)} (hl : Candid l)
    (hx : x.deed.notice? = none) : Candid (l ++ [x]) :=
  candid_concat.mpr ⟨hl, by simp [hx]⟩

theorem candid_publish {n : Notice} (hr : Candid r.2) (hn : n.Candid) :
    Candid (env.recorded.publish n r).2 := candid_concat.mpr ⟨hr, by rintro _ ⟨⟩; exact hn⟩

theorem Polled.candid {m : Memory} {reply : Reply ε} (hp : Polled env m r reply q)
    (hr : Candid r.2) : Candid q.2 := by
  rw [hp.noted]
  exact candid_silent hr rfl

theorem candid_act {st : Stage Unit ε} {m : Memory}
    {p : Progress (Stage Unit ε) (Memory × Recording ω (Deed ε))} (hsrc : ReadOnly src)
    (ha : Act (b.given src.share) env st m r p) (hr : Candid r.2) : Candid p.world.2.2 := by
  cases ha with
  | stop | wake | sleep | rest => exact hr
  | begin => exact candid_publish (candid_silent hr rfl) nofun
  | pend hp | hush hp => exact hp.candid hr
  | connect hp | fail hp => exact candid_publish (hp.candid hr) nofun
  | announce hp _ _ hd hs =>
    rw [peek_given b (readOnly_share hsrc)] at hd
    cases hd
    rw [peekSeconds_given b (readOnly_share hsrc)] at hs
    cases hs
    exact candid_publish (hp.candid hr) fun _ => rfl
  | draw => exact candid_silent hr rfl

theorem candid_turn {x : State ε} {p : Progress (State ε) (Recording ω (Deed ε))}
    (hsrc : ReadOnly src) (ht : Turn (b.given src.share) env x r p) (hr : Candid r.2) :
    Candid p.world.2 := by
  cases ht with
  | run ha | stay ha | expire ha | last ha | linger ha | giveUp ha => exact candid_act hsrc ha hr
  | @close m x =>
    cases hn : State.closingNotice (b.given src.share) m x with
    | none => exact hr
    | some n => exact candid_publish hr fun hk => absurd hk (kind_closingNotice hn)
  | rest => exact hr

/-- Behind a layer the seconds are those of the delay. -/
theorem candid_share {l : List (Happening ω)} {w : ω} (hsrc : ReadOnly src) :
    Candid ((b.given src.share).course env l w).2.2 := by
  induction l using List.reverseRecOn with
  | nil => exact fun _ hn => absurd hn List.not_mem_nil
  | append_singleton l h ih =>
    rw [course_concat]
    cases h with
    | step => exact candid_turn hsrc (turn_step _ env _ _) ih
    | change f => exact ih

/-- What has been misstated stands in the record. -/
theorem not_candid_of_misstates (h : b.recorded.Misstates env.recorded r) : ¬ Candid r.2 := by
  obtain ⟨m, d, s, e, v, rfl, hs⟩ := h
  intro hcandid
  have hn := (candid_concat.mp hcandid).2 _ rfl
  exact hs (Option.some.inj (hn rfl))

/-- Notices stay in the record. -/
theorem candid_of_step {x : State ε} (b : Brief ω ε) (env : Surroundings ω ε)
    (h : Candid (State.step b.recorded env.recorded x r).world.2) : Candid r.2 := by
  have run : Run (State.step b.recorded env.recorded) (Recording.drift fun _ _ _ => True)
      x (r.1, r.2) _ _ := Run.refl.step
  obtain ⟨l, hl, -⟩ := exists_run_after run
  intro n hn
  refine h n ?_
  rw [hl, notices, List.filterMap_append]
  exact List.mem_append_left _ hn

/-- A campaign that announces nothing else takes the same course behind a layer more. -/
theorem course_share {l : List (Happening ω)} {w : ω} (hsrc : ReadOnly src)
    (h : Candid ((b.given src).course env l w).2.2) :
    (b.given src.share).course env l w = (b.given src).course env l w := by
  induction l using List.reverseRecOn with
  | nil =>
    rw [course_nil, course_nil]
    rfl
  | append_singleton l x ih =>
    rw [course_concat] at h ⊢
    rw [course_concat]
    cases x with
    | step =>
      -- What is candid after the step was so before it, and a misstatement would now be on record.
      rw [ih (candid_of_step (b.given src) env h)]
      have hstep := step_share b.recorded env.recorded (readOnly_beside hsrc)
        ((b.given src).course env l w).1 ((b.given src).course env l w).2
      rcases hstep with heq | hmisstates
      · exact congrArg (fun p => (p.state, p.world)) heq
      · exact absurd h (not_candid_of_misstates hmisstates)
    | change f =>
      rw [ih h]
      simp only [Happening.beside, Happening.apply]

end Candid

/-- Behind layers that share it a source is told from what it is alone only by its answers to the
question for the whole seconds. They do not tell it exactly if, whatever it was asked before, it
answers the seconds of what it would show and goes on as if it had shown it; and a campaign then
announces the same exactly if it announces no other seconds than those of the delay, in which case
its whole course is the same. -/
theorem sharing_transparent_iff (src : Source ω) (n : Nat) :
    (∀ w qs, .peekSeconds ∉ qs → (src.sharedBy (n + 1)).answers qs w = src.answers qs w) ∧
    (∀ w, (∀ qs, (src.sharedBy (n + 1)).answers qs w = src.answers qs w) ↔
      ∀ qs, src.Candid (src.after qs w)) ∧
    (ReadOnly src → ∀ (b : Brief ω ε) (env : Surroundings ω ε) (l : List (Happening ω)) (w : ω),
      (notices ((b.given (src.sharedBy (n + 1))).course env l w).2.2 =
          notices ((b.given src).course env l w).2.2 ↔
        Candid ((b.given src).course env l w).2.2) ∧
      (Candid ((b.given src).course env l w).2.2 →
        (b.given (src.sharedBy (n + 1))).course env l w = (b.given src).course env l w)) := by
  rw [src.sharedBy_succ]
  refine ⟨fun w qs hqs => Source.answers_share hqs w, fun w => Source.answers_share_iff, ?_⟩
  intro hsrc b env l w
  refine ⟨⟨fun heq => ?_, fun hcandid => ?_⟩, course_share hsrc⟩
  · have hshare : Candid ((b.given src.share).course env l w).2.2 := candid_share hsrc
    rwa [Candid, heq] at hshare
  · rw [course_share hsrc hcandid]

/-- Delays of one second, with seven as their whole seconds. -/
def outspoken : Backoff.Listed := ⟨[.ofSecs 1], none, some 7, 0⟩

theorem readOnly_listed : ReadOnly Backoff.Listed.source := ⟨fun _ => rfl, fun _ => rfl⟩

/-- A campaign whose connector fails for now until a delay was drawn. -/
def impatient : Brief Backoff.Listed String := ⟨⟨"impatient", fun _ => true, id⟩, .standard, none⟩

/-- A world that holds nothing but the delays, and in which no time passes. -/
def bareWorld : Surroundings Backoff.Listed String where
  now _ := 0
  wake _ w := some w
  cancelled _ := false
  start w := w
  poll _ w := (⟨some (if w.drawn = 0 then .error "refused" else .ok ()), false⟩, w)
  publish _ w := w
  pause _ w := w
  roll w := (fun _ => 0, w)

theorem sharing_transparent_iff_outspoken :
    (¬ ∀ qs, (Backoff.Listed.source.sharedBy 1).answers qs outspoken =
      Backoff.Listed.source.answers qs outspoken) ∧
    ReadOnly Backoff.Listed.source ∧
    notices ((impatient.given (Backoff.Listed.source.sharedBy 1)).course bareWorld
        (.replicate 8 .step) outspoken).2.2 ≠
      notices ((impatient.given Backoff.Listed.source).course bareWorld
        (.replicate 8 .step) outspoken).2.2 := by
  obtain ⟨-, hanswers, hcampaigns⟩ :=
    sharing_transparent_iff (ε := String) Backoff.Listed.source 0
  obtain ⟨hnotices, -⟩ := hcampaigns readOnly_listed impatient bareWorld (.replicate 8 .step)
    outspoken
  refine ⟨fun h => ?_, readOnly_listed, fun h => ?_⟩
  · have hcandid := (hanswers outspoken).mp h []
    exact absurd hcandid.seconds (by decide)
  · exact absurd (hnotices.mp h) (by decide)

end Campaign

end Reattempt
