import Reattempt.Proofs.Campaign.Turn
import Reattempt.Proofs.Rehearsal.Laws

/-!
# What a campaign leaves as it is

A campaign reaches its world only through its surroundings and through the
generator that it shares. So whatever all of these keep, each of its steps keeps.
The number of attempts it knows of is that of the attempts it has begun, and its
deadline stays what it was.
-/

namespace Reattempt.Campaign

open Executor (Stage)

variable {ω ε : Type}

/-- Nothing that a campaign asks of its surroundings or of a shared generator destroys `P`. -/
structure Keeps (b : Brief ω ε) (env : Surroundings ω ε) (P : ω → Prop) : Prop where
  start : ∀ w, P w → P (env.start w)
  poll : ∀ c w, P w → P (env.poll c w).2
  publish : ∀ n w, P w → P (env.publish n w)
  pause : ∀ d w, P w → P (env.pause d w)
  roll : ∀ w, P w → P (env.roll w).2
  wake : ∀ due w v, env.wake due w = some v → P w → P v
  next : ∀ src ∈ b.shared, ∀ rolls w, P w → P (src.next rolls w).2
  peek : ∀ src ∈ b.shared, ∀ w, P w → P (src.peek w).2
  peekSeconds : ∀ src ∈ b.shared, ∀ w, P w → P (src.peekSeconds w).2

section Frame

variable {b : Brief ω ε} {env : Surroundings ω ε} {P : ω → Prop} {m m' : Memory} {w u : ω}
  {d : Duration} {r q : Recording ω (Deed ε)}

theorem keeps_next (hk : Keeps b env P) (hn : b.next env (m, w) = (d, m', u)) (hw : P w) :
    P u := by
  rcases hr : env.roll w with ⟨rolls, v⟩
  have hv : P v := by
    have h := hk.roll w hw
    rwa [hr] at h
  cases hs : b.shared with
  | none =>
    rw [Brief.next_of_own hs hr] at hn
    obtain ⟨-, -, rfl⟩ := by simpa only [Brief.ask, Prod.mk.injEq] using hn
    exact hv
  | some src =>
    rw [Brief.next_of_shared hs hr] at hn
    obtain ⟨-, -, rfl⟩ := by simpa only [Prod.mk.injEq] using hn
    exact hk.next src hs rolls v hv

theorem keeps_peek (hk : Keeps b env P) (hd : b.peek (m, w) = (d, m', u)) (hw : P w) : P u := by
  cases hs : b.shared with
  | none =>
    rw [Brief.peek_of_own hs] at hd
    obtain ⟨-, -, rfl⟩ := by simpa only [Brief.ask, Prod.mk.injEq] using hd
    exact hw
  | some src =>
    rw [Brief.peek_of_shared hs] at hd
    obtain ⟨-, -, rfl⟩ := by simpa only [Prod.mk.injEq] using hd
    exact hk.peek src hs w hw

theorem keeps_peekSeconds {s : UInt64} (hk : Keeps b env P)
    (hs : b.peekSeconds (m, w) = (s, m', u)) (hw : P w) : P u := by
  cases hb : b.shared with
  | none =>
    rw [Brief.peekSeconds_of_own hb] at hs
    obtain ⟨-, -, rfl⟩ := by simpa only [Brief.ask, Prod.mk.injEq] using hs
    exact hw
  | some src =>
    rw [Brief.peekSeconds_of_shared hb] at hs
    obtain ⟨-, -, rfl⟩ := by simpa only [Prod.mk.injEq] using hs
    exact hk.peekSeconds src hb w hw

theorem keeps_polled {reply : Reply ε} (hk : Keeps b env P) (hp : Polled env m r reply q)
    (hw : P r.1) : P q.1 := by
  have h := hk.poll (lost env m r.1) r.1 hw
  rwa [hp.answer] at h

theorem keeps_act {st : Stage Unit ε}
    {p : Progress (Stage Unit ε) (Memory × Recording ω (Deed ε))} (hk : Keeps b env P)
    (ha : Act b env st m r p) (hw : P r.1) : P p.world.2.1 := by
  cases ha with
  | stop | sleep | rest => exact hw
  | begin => exact hk.publish _ _ (hk.start _ hw)
  | pend hp | hush hp => exact keeps_polled hk hp hw
  | connect hp | fail hp => exact hk.publish _ _ (keeps_polled hk hp hw)
  | announce hp _ _ hd hs =>
    have hq := keeps_peek hk hd (keeps_polled hk hp hw)
    exact hk.publish _ _ (keeps_peekSeconds hk hs hq)
  | draw _ hn => exact hk.pause _ _ (keeps_next hk hn hw)
  | wake _ hu => exact hk.wake _ _ _ hu hw

theorem keeps_turn {s : State ε} {p : Progress (State ε) (Recording ω (Deed ε))}
    (hk : Keeps b env P) (ht : Turn b env s r p) (hw : P r.1) : P p.world.1 := by
  cases ht with
  | run ha | stay ha | last ha | linger ha => exact keeps_act hk ha hw
  | expire ha hu | giveUp ha hu => exact hk.wake _ _ _ hu (keeps_act hk ha hw)
  | @close m x =>
    cases hn : State.closingNotice b m x with
    | none => exact hw
    | some n => exact hk.publish n _ hw
  | rest => exact hw

end Frame

/-- In a rehearsal nothing that a campaign asks of its surroundings moves the clock, however
its waits end. -/
theorem keeps_clock {b : Brief (Rehearsal.World Unit ε) ε} (hb : b.shared = none) (i : Nat)
    {wake : Nat → Rehearsal.World Unit ε → Option (Rehearsal.World Unit ε)}
    (hwake : ∀ due w v, wake due w = some v → v.clock = w.clock) (P : Nat → Prop) :
    Keeps b { Rehearsal.surroundings i with wake } fun w => P w.clock where
  start _ hw := hw
  poll c w hw := by
    show P (w.poll i c).2.clock
    rwa [w.clock_poll]
  publish n w hw := by
    show P (w.publish i n).clock
    rwa [w.clock_publish]
  pause _ _ hw := hw
  roll w hw := by
    show P w.roll.2.clock
    rwa [w.clock_roll]
  wake due w v hv hw := by
    rwa [hwake due w v hv]
  next := by rw [hb]; exact nofun
  peek := by rw [hb]; exact nofun
  peekSeconds := by rw [hb]; exact nofun

/-! ## The number of attempts and the deadline -/

section Turn

variable {b : Brief ω ε} {env : Surroundings ω ε} {m : Memory} {r q : Recording ω (Deed ε)}

theorem begun_publish (env : Surroundings ω ε) (n : Notice) (r : Recording ω (Deed ε)) :
    begun (env.recorded.publish n r).2 = begun r.2 := begun_concat r.2 ⟨.published n, _, _⟩

theorem begun_polled {reply : Reply ε} (hp : Polled env m r reply q) : begun q.2 = begun r.2 := by
  rw [hp.noted]
  exact begun_concat r.2 ⟨.polled _ _, _, _⟩

theorem begun_start (env : Surroundings ω ε) (r : Recording ω (Deed ε)) :
    begun (env.recorded.start r).2 = begun r.2 + 1 := begun_concat r.2 ⟨.began, _, _⟩

/-- A campaign knows how many attempts it has begun, as far as a word of 32 bits goes. -/
def Counts (m : Memory) (l : Record ω ε) : Prop := m.attempts = .ofNat (begun l)

theorem counts_concat {l : Record ω ε} {x : Entry ω (Deed ε)} (h : Counts m l)
    (hx : x.deed.isBegin = false) : Counts m (l ++ [x]) := by
  rw [Counts, begun_concat, hx]
  exact h

theorem counts_publish (h : Counts m r.2) (env : Surroundings ω ε) (n : Notice) :
    Counts m (env.recorded.publish n r).2 := counts_concat h rfl

theorem counts_start (h : Counts m r.2) (env : Surroundings ω ε) :
    Counts m.renewed (env.recorded.start r).2 := by
  show m.attempts + 1 = .ofNat (begun (r.2 ++ [_]))
  rw [h, begun_concat]
  exact (UInt32.ofNat_add _ _).symm

theorem counts_polled {reply : Reply ε} (h : Counts m r.2) (hp : Polled env m r reply q)
    (own : Bool) : Counts (m.heard own) q.2 := by
  rw [hp.noted]
  exact counts_concat h rfl

theorem counts_act {st : Stage Unit ε}
    {p : Progress (Stage Unit ε) (Memory × Recording ω (Deed ε))} (ha : Act b env st m r p)
    (h : Counts m r.2) : Counts p.world.1 p.world.2.2 := by
  cases ha with
  | stop | wake | sleep | rest => exact h
  | begin => exact counts_publish (counts_start h env) env _
  | pend hp | hush hp => exact counts_polled h hp _
  | connect hp | fail hp => exact counts_publish (counts_polled h hp _) env _
  | @announce _ m₁ m₂ _ q e own d s u₁ u₂ hp _ _ hd hs =>
    have hm : m₂.attempts = m.attempts := by
      rw [Brief.memory_of_peekSeconds hs, Brief.memory_of_peek hd, Memory.heard]
    have hq : Counts m₂ q.2 := by rw [Counts, hm]; exact counts_polled h hp own
    exact counts_publish (r := q.goOn u₂) hq env _
  | @draw _ m' _ d u _ hn =>
    have hm : m'.attempts = m.attempts := by rw [Brief.memory_of_next hn]
    have hr : Counts m' r.2 := by rw [Counts, hm]; exact h
    exact counts_concat (x := ⟨.drew d, u, _⟩) hr rfl

theorem counts_turn {s : State ε} {p : Progress (State ε) (Recording ω (Deed ε))}
    (ht : Turn b env s r p) (h : Counts s.memory r.2) : Counts p.state.memory p.world.2 := by
  cases ht with
  | run ha =>
    show Counts (State.runAt _ _).memory _
    rw [memory_runAt]
    exact counts_act ha h
  | last ha =>
    show Counts (State.expireAt _ _).memory _
    rw [memory_expireAt]
    exact counts_act ha h
  | stay ha | linger ha | expire ha | giveUp ha => exact counts_act ha h
  | @close m x =>
    cases hn : State.closingNotice b m x with
    | none => exact h
    | some n => exact counts_publish h env n
  | rest => exact h

theorem limit_turn {s : State ε} {p : Progress (State ε) (Recording ω (Deed ε))}
    (ht : Turn b env s r p) : p.state.limit = s.limit := by
  cases ht with
  | run => exact limit_runAt _ _
  | last => exact limit_expireAt _ _
  | stay | linger | expire | giveUp | close | rest => rfl

theorem counts_run {drift : State ε → ω → ω → Prop} {now : Nat} {w : ω} {s : State ε}
    (run : Run (State.step b.recorded env.recorded) (Recording.drift drift) (.begin b now) (w, [])
      s r) : Counts s.memory r.2 := by
  induction run with
  | refl => rfl
  | step _ ih => exact counts_turn (turn_step b env _ _) ih
  | drift _ hu ih => exact hu.2 ▸ ih

theorem limit_run {drift : State ε → ω → ω → Prop} {now : Nat} {w : ω} {s : State ε}
    (run : Run (State.step b.recorded env.recorded) (Recording.drift drift) (.begin b now) (w, [])
      s r) : s.limit = b.settings.campaignDeadline.map fun d => (now + d.ceilMillis, d) := by
  induction run with
  | refl => rfl
  | step _ ih => exact (limit_turn (turn_step b env _ _)).trans ih
  | drift _ _ ih => exact ih

end Turn

end Reattempt.Campaign
