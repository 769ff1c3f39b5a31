import Reattempt.Proofs.Campaign.Turn
import Reattempt.Rehearsal.Job

/-!
# Announcements of pauses

A delay is drawn right after it was announced, and an announcement comes right
after the attempt that failed for now and bears its number. The two go together
unless an attempt has cancelled the token that it was handed: then a delay is
drawn that nobody announced. Anything may happen to the world at any time, but a
cancellation is not taken back.
-/

namespace Reattempt.Campaign

open Executor (Stage)

variable {ω ε : Type}

def Deed.isDraw : Deed ε → Bool
  | .drew _ => true
  | _ => false

def Deed.isAnnouncement : Deed ε → Bool
  | .published n => n.kind = .backoffScheduled
  | _ => false

/-- An answer that ends an attempt with a retryable error. -/
def Reply.isTransient (b : Brief ω ε) : Reply ε → Bool
  | ⟨some (.error e), _⟩ => b.connector.retryable e
  | _ => false

def Deed.isRefusal (b : Brief ω ε) : Deed ε → Bool
  | .polled _ reply => reply.isTransient b
  | _ => false

/-- The deed announces the pause after attempt `k`. -/
def Deed.Announces (k : UInt32) (d : Deed ε) : Prop :=
  ∃ n, d = .published n ∧ n.kind = .backoffScheduled ∧ n.attempt = some k

theorem Deed.isBegin_of_isAnnouncement {d : Deed ε} (h : d.isAnnouncement = true) :
    d.isBegin = false := by
  cases d with
  | published n => rfl
  | began | polled c reply | drew d => cases h

theorem Deed.isRefusal_of_isAnnouncement {b : Brief ω ε} {d : Deed ε}
    (h : d.isAnnouncement = true) : d.isRefusal b = false := by
  cases d with
  | published n => rfl
  | began | polled c reply | drew d => cases h

/-- What an entry has to do with the one before it. -/
structure Lawful (b : Brief ω ε) (env : Surroundings ω ε) (l : Record ω ε)
    (x : Entry ω (Deed ε)) : Prop where
  /-- A draw comes after its announcement, or after the failure of an attempt that had
  cancelled its own token. -/
  draw : x.deed.isDraw = true → ∃ a ∈ l.getLast?,
    a.deed.isAnnouncement = true ∧ severed l = false ∨
    a.deed.isRefusal b = true ∧ severed l = true
  announcement : x.deed.isAnnouncement = true → severed l = false ∧
    x.deed.Announces (.ofNat (begun l)) ∧ ∃ p ∈ l.getLast?, p.deed.isRefusal b = true
  /-- After an announcement comes the draw, unless the campaign was cancelled by then. -/
  next : ∀ a ∈ l.getLast?, a.deed.isAnnouncement = true →
    (x.deed.isDraw = true ↔ env.cancelled a.after = false)

/-- No draw is missing after the last entry: if it is an announcement, the campaign is
cancelled. -/
def Settled (env : Surroundings ω ε) (w : ω) (last : Option (Entry ω (Deed ε))) : Prop :=
  ∀ x ∈ last, x.deed.isAnnouncement = true → x.after = w ∧ env.cancelled w = true

theorem settled_of_quiet {env : Surroundings ω ε} {w : ω} {last : Option (Entry ω (Deed ε))}
    (h : ∀ x ∈ last, x.deed.isAnnouncement = false) : Settled env w last := by
  intro x hx hann
  rw [h x hx] at hann
  cases hann

theorem settled_concat {env : Surroundings ω ε} {w : ω} {l : Record ω ε}
    {x : Entry ω (Deed ε)} (hx : x.deed.isAnnouncement = false) :
    Settled env w (l ++ [x]).getLast? := by
  rw [List.getLast?_concat]
  refine settled_of_quiet ?_
  rintro y ⟨⟩
  exact hx

theorem Settled.quiet {env : Surroundings ω ε} {w : ω} {last : Option (Entry ω (Deed ε))}
    (h : Settled env w last) (hc : env.cancelled w = false) :
    ∀ x ∈ last, x.deed.isAnnouncement = false := by
  intro x hx
  cases hann : x.deed.isAnnouncement with
  | false => rfl
  | true =>
    rw [(h x hx hann).2] at hc
    cases hc

/-- How the stage of a run, its memory and its world go with the last entry. -/
inductive Awaits (b : Brief ω ε) (env : Surroundings ω ε) :
    Stage Unit ε → Memory → ω → Option (Entry ω (Deed ε)) → Prop where
  | announced {m : Memory} {w : ω} {x : Entry ω (Deed ε)} (hx : x.deed.isAnnouncement = true)
      (hw : x.after = w) (he : m.expired = false) (hs : m.severed = false) :
      Awaits b env .refused m w (some x)
  | hushed {m : Memory} {w : ω} {x : Entry ω (Deed ε)} (hx : x.deed.isRefusal b = true)
      (hc : lost env m w = true) : Awaits b env .refused m w (some x)
  | settled {st : Stage Unit ε} {m : Memory} {w : ω} {last : Option (Entry ω (Deed ε))}
      (hst : st ≠ .refused) (hl : Settled env w last) : Awaits b env st m w last

theorem Awaits.settled_of_ne {b : Brief ω ε} {env : Surroundings ω ε} {st : Stage Unit ε}
    {m : Memory} {w : ω} {last : Option (Entry ω (Deed ε))} (h : Awaits b env st m w last)
    (hst : st ≠ .refused) : Settled env w last := by
  cases h with
  | announced | hushed => exact absurd rfl hst
  | settled _ hl => exact hl

/-- A cancelled campaign owes no draw. -/
theorem Awaits.settled_of_cancelled {b : Brief ω ε} {env : Surroundings ω ε}
    {st : Stage Unit ε} {m : Memory} {w : ω} {last : Option (Entry ω (Deed ε))}
    (h : Awaits b env st m w last) (hc : Brief.cancelled env (m, w) = true) :
    Settled env w last := by
  cases h with
  | announced hx hw he =>
    rintro y ⟨⟩ -
    exact ⟨hw, by simpa [Brief.cancelled, he] using hc⟩
  | hushed hx =>
    rintro y ⟨⟩ hy
    rw [Deed.isRefusal_of_isAnnouncement hy] at hx
    cases hx
  | settled _ hl => exact hl

/-- What holds of a campaign's memory and record at any moment. -/
structure Kept (b : Brief ω ε) (env : Surroundings ω ε) (m : Memory) (l : Record ω ε) :
    Prop where
  lawful : Each (Lawful b env) l
  attempts : m.attempts = .ofNat (begun l)
  severed : m.severed = severed l

/-- An entry that neither draws nor announces may come where no draw is missing. -/
theorem lawful_plain {b : Brief ω ε} {env : Surroundings ω ε} {w : ω} {l : Record ω ε}
    {x : Entry ω (Deed ε)} (hd : x.deed.isDraw = false) (ha : x.deed.isAnnouncement = false)
    (hl : Settled env w l.getLast?) : Lawful b env l x where
  draw h := absurd h (by simp [hd])
  announcement h := absurd h (by simp [ha])
  next a h h' := by
    obtain ⟨hw, hc⟩ := hl a h h'
    simp [hd, hw, hc]

theorem Polled.getLast? {env : Surroundings ω ε} {m : Memory} {r q : Recording ω (Deed ε)}
    {reply : Reply ε} (hp : Polled env m r reply q) :
    q.2.getLast? = some ⟨.polled (lost env m r.1) reply, r.1, q.1⟩ := by
  rw [hp.noted]
  exact List.getLast?_concat

theorem Polled.settled {env : Surroundings ω ε} {m : Memory} {r q : Recording ω (Deed ε)}
    {reply : Reply ε} (hp : Polled env m r reply q) : Settled env q.1 q.2.getLast? := by
  rw [hp.noted]
  exact settled_concat rfl

theorem settled_publish (env : Surroundings ω ε) (n : Notice) (r : Recording ω (Deed ε))
    (hn : n.kind ≠ .backoffScheduled) :
    Settled env (env.recorded.publish n r).1 (env.recorded.publish n r).2.getLast? :=
  settled_concat (by simp [Deed.isAnnouncement, hn])

theorem Kept.concat {b : Brief ω ε} {env : Surroundings ω ε} {m m' : Memory} {l : Record ω ε}
    {x : Entry ω (Deed ε)} (hk : Kept b env m l) (hx : Lawful b env l x)
    (ha : m'.attempts = m.attempts + if x.deed.isBegin then 1 else 0)
    (hs : m'.severed = x.deed.sever m.severed) : Kept b env m' (l ++ [x]) := by
  refine ⟨each_concat.mpr ⟨hk.lawful, hx⟩, ?_, ?_⟩
  · rw [ha, hk.attempts, begun_concat]
    cases x.deed.isBegin <;> simp
  · rw [hs, hk.severed, severed_concat]

theorem Kept.polled {b : Brief ω ε} {env : Surroundings ω ε} {m : Memory}
    {r q : Recording ω (Deed ε)} {outcome : Option (Except ε Unit)} {own : Bool}
    (hk : Kept b env m r.2) (hl : Settled env r.1 r.2.getLast?)
    (hp : Polled env m r ⟨outcome, own⟩ q) :
    Kept b env (m.heard own) q.2 := by
  rw [hp.noted]
  exact hk.concat (lawful_plain rfl rfl hl) (UInt32.add_zero _).symm rfl

theorem Kept.publish {b : Brief ω ε} {env : Surroundings ω ε} {m : Memory}
    {r : Recording ω (Deed ε)} (hk : Kept b env m r.2) (hl : Settled env r.1 r.2.getLast?)
    (n : Notice) (hn : n.kind ≠ .backoffScheduled) : Kept b env m (env.recorded.publish n r).2 := by
  have hx : (Deed.published (ε := ε) n).isAnnouncement = false := by simp [Deed.isAnnouncement, hn]
  exact hk.concat (lawful_plain rfl hx hl) (UInt32.add_zero _).symm rfl

/-- The announcement of a pause follows the poll that has found its attempt to have failed. -/
theorem lawful_announcement {b : Brief ω ε} {env : Surroundings ω ε} {m : Memory}
    {l : Record ω ε} {x : Entry ω (Deed ε)} (hk : Kept b env m l) (hx : l.getLast? = some x)
    (hr : x.deed.isRefusal b = true) (hs : m.severed = false) {n : Notice}
    (hn : n.kind = .backoffScheduled) (ha : n.attempt = some m.attempts) (w v : ω) :
    Lawful b env l ⟨.published n, w, v⟩ := by
  refine ⟨nofun, fun _ => ⟨hk.severed ▸ hs, ⟨n, rfl, hn, ?_⟩, x, hx, hr⟩, ?_⟩
  · rw [ha, hk.attempts]
  · intro y hy hann
    obtain rfl := Option.some.inj (hx.symm.trans hy)
    rw [Deed.isRefusal_of_isAnnouncement hann] at hr
    cases hr

/-- A draw comes after its announcement, or after an attempt that has cancelled its own
token. -/
theorem lawful_draw {b : Brief ω ε} {env : Surroundings ω ε} {m : Memory} {w : ω}
    {l : Record ω ε} (hw : Awaits b env .refused m w l.getLast?) (hs : m.severed = severed l)
    (hc : Brief.cancelled env (m, w) = false) (d : Duration) (u v : ω) :
    Lawful b env l ⟨.drew d, u, v⟩ := by
  generalize hlast : l.getLast? = last at hw
  cases hw with
  | announced hx hw he hm =>
    obtain ⟨hu, -⟩ := Bool.or_eq_false_iff.mp hc
    refine ⟨fun _ => ⟨_, hlast, .inl ⟨hx, hs ▸ hm⟩⟩, nofun, ?_⟩
    intro a ha _
    obtain rfl := Option.some.inj (hlast.symm.trans ha)
    exact iff_of_true rfl (hw ▸ hu)
  | hushed hx hl =>
    have hm : m.severed = true := by simpa [lost, hc] using hl
    refine ⟨fun _ => ⟨_, hlast, .inr ⟨hx, hs ▸ hm⟩⟩, nofun, ?_⟩
    intro a ha hann
    obtain rfl := Option.some.inj (hlast.symm.trans ha)
    rw [Deed.isRefusal_of_isAnnouncement hann] at hx
    cases hx
  | settled hst => exact absurd rfl hst

theorem kept_act {b : Brief ω ε} {env : Surroundings ω ε} {st : Stage Unit ε} {m : Memory}
    {r : Recording ω (Deed ε)} {p : Progress (Stage Unit ε) (Memory × Recording ω (Deed ε))}
    (ha : Act b env st m r p) (hk : Kept b env m r.2) (hw : Awaits b env st m r.1 r.2.getLast?) :
    Kept b env p.world.1 p.world.2.2 ∧
      Awaits b env p.state p.world.1 p.world.2.1 p.world.2.2.getLast? := by
  cases ha with
  | stop hs hc => exact ⟨hk, .settled nofun (hw.settled_of_cancelled hc)⟩
  | begin =>
    have hb : Kept b env m.renewed (env.recorded.start r).2 :=
      hk.concat (lawful_plain rfl rfl (hw.settled_of_ne nofun)) rfl rfl
    refine ⟨hb.publish (settled_concat rfl) _ nofun, .settled nofun ?_⟩
    exact settled_publish env (b.notice .attemptStarting m.renewed) _ nofun
  | pend hp => exact ⟨hk.polled (hw.settled_of_ne nofun) hp, .settled nofun hp.settled⟩
  | @connect _ _ _ own hp =>
    have hq := hk.polled (hw.settled_of_ne nofun) hp
    refine ⟨hq.publish hp.settled _ nofun, .settled nofun ?_⟩
    exact settled_publish env (b.notice .connected (m.heard own)) _ nofun
  | @fail _ _ _ e own hp he =>
    have hq := hk.polled (hw.settled_of_ne nofun) hp
    refine ⟨hq.publish hp.settled _ nofun, .settled nofun ?_⟩
    exact settled_publish env (b.failure (m.heard own) e) _ nofun
  | @hush _ _ q e own hp he hc =>
    have hx : (Deed.polled (lost env m r.1) ⟨some (.error e), own⟩).isRefusal b = true := he
    have hlast : Awaits b env .refused (m.heard own) q.1 q.2.getLast? := by
      rw [hp.getLast?]
      exact .hushed hx hc
    exact ⟨hk.polled (hw.settled_of_ne nofun) hp, hlast⟩
  | @announce _ m₁ m₂ _ q e own d s u₁ u₂ hp he hc hd hs =>
    have hx : (Deed.polled (lost env m r.1) ⟨some (.error e), own⟩).isRefusal b = true := he
    have hq := hk.polled (hw.settled_of_ne nofun) hp
    -- looking ahead changes the campaign's own generator and nothing else in its memory
    have hm : m₂ = { m.heard own with fresh := m₂.fresh } :=
      (Brief.memory_of_peekSeconds hs).trans
        (congrArg (fun m => { m with fresh := m₂.fresh }) (Brief.memory_of_peek hd))
    have hattempts : m₂.attempts = m.attempts := by rw [hm]; rfl
    have hsevered : m₂.severed = (m.heard own).severed := by rw [hm]
    have hexpired : m₂.expired = m.expired := by rw [hm]; rfl
    obtain ⟨hcancel, hsever⟩ := Bool.or_eq_false_iff.mp hc
    have hlast : Awaits b env .refused m₂ (env.publish (b.announcement m₂ d s e) u₂)
        (some ⟨.published (b.announcement m₂ d s e), u₂, _⟩) :=
      .announced rfl rfl (hexpired.trans (Bool.or_eq_false_iff.mp hcancel).2)
        (hsevered.trans hsever)
    rw [← List.getLast?_concat (l := q.2)] at hlast
    refine ⟨hq.concat ?_ (hattempts.trans (UInt32.add_zero _).symm) hsevered, hlast⟩
    exact lawful_announcement hq hp.getLast? hx hsever rfl (congrArg some hattempts) u₂ _
  | @draw _ m' _ d u hc hn =>
    have hm := Brief.memory_of_next hn
    have hattempts : m'.attempts = m.attempts := by rw [hm]
    have hsevered : m'.severed = m.severed := by rw [hm]
    exact ⟨hk.concat (lawful_draw hw hk.severed hc d u _)
      (hattempts.trans (UInt32.add_zero _).symm) hsevered, .settled nofun (settled_concat rfl)⟩
  | wake hc =>
    -- the timer may change the world, which is harmless only after another entry
    have hquiet := (hw.settled_of_ne nofun).quiet (Bool.or_eq_false_iff.mp hc).1
    exact ⟨hk, .settled nofun (settled_of_quiet hquiet)⟩
  | sleep | rest => exact ⟨hk, hw⟩

/-- A run that waits has not just announced a pause. -/
theorem Act.quiet_of_waiting {b : Brief ω ε} {env : Surroundings ω ε} {st st' : Stage Unit ε}
    {m m' : Memory} {r q : Recording ω (Deed ε)} (ha : Act b env st m r (.waiting st' (m', q)))
    (hst : st.result? = none) (hw : Awaits b env st m r.1 r.2.getLast?) :
    ∀ x ∈ q.2.getLast?, x.deed.isAnnouncement = false := by
  cases ha with
  | pend hp =>
    rw [hp.getLast?]
    rintro x ⟨⟩
    rfl
  | sleep hc => exact (hw.settled_of_ne nofun).quiet (Bool.or_eq_false_iff.mp hc).1
  | rest => cases hst

/-- How a campaign and its world go with the last entry. -/
def Owes (b : Brief ω ε) (env : Surroundings ω ε) (s : State ε) (r : Recording ω (Deed ε)) : Prop :=
  match s.phase with
  | .running st | .expiring st => st.result? = none ∧ Awaits b env st s.memory r.1 r.2.getLast?
  | .closing _ | .finished _ => Settled env r.1 r.2.getLast?

theorem owes_runAt {b : Brief ω ε} {env : Surroundings ω ε} {s : State ε} {st : Stage Unit ε}
    {r : Recording ω (Deed ε)} (h : Awaits b env st s.memory r.1 r.2.getLast?) :
    Owes b env (s.runAt st) r := by
  cases st with
  | ended x => exact h.settled_of_ne nofun
  | ready | attempting | refused | pausing due => exact ⟨rfl, h⟩

theorem owes_expireAt {b : Brief ω ε} {env : Surroundings ω ε} {s : State ε} {st : Stage Unit ε}
    {r : Recording ω (Deed ε)} (h : Awaits b env st s.memory r.1 r.2.getLast?) :
    Owes b env (s.expireAt st) r := by
  cases st with
  | ended x =>
    match x with
    | .ok () | .error _ => exact h.settled_of_ne nofun
  | ready | attempting | refused | pausing due => exact ⟨rfl, h⟩

theorem kept_turn {b : Brief ω ε} {env : Surroundings ω ε} {s : State ε}
    {r : Recording ω (Deed ε)} {p : Progress (State ε) (Recording ω (Deed ε))}
    (ht : Turn b env s r p) (hk : Kept b env s.memory r.2) (ho : Owes b env s r) :
    Kept b env p.state.memory p.world.2 ∧ Owes b env p.state p.world := by
  -- a run that waits owes nothing, whatever the world is then
  have waits {st st' : Stage Unit ε} {m m' : Memory} {q : Recording ω (Deed ε)}
      (ha : Act b env st m r (.waiting st' (m', q))) (hk : Kept b env m r.2)
      (hw : st.result? = none ∧ Awaits b env st m r.1 r.2.getLast?) :
      Kept b env m' q.2 ∧ ∀ w, Settled env w q.2.getLast? :=
    ⟨(kept_act ha hk hw.2).1, fun _ => settled_of_quiet (ha.quiet_of_waiting hw.1 hw.2)⟩
  cases ht with
  | run ha =>
    obtain ⟨hq, hs⟩ := kept_act ha hk ho.2
    refine ⟨?_, owes_runAt hs⟩
    show Kept b env (State.runAt _ _).memory _
    rw [memory_runAt]
    exact hq
  | stay ha =>
    obtain ⟨hq, hs⟩ := waits ha hk ho
    exact ⟨hq, ho.1, .settled ha.ne_refused_of_waiting (hs _)⟩
  | expire ha =>
    obtain ⟨hq, hs⟩ := waits ha hk ho
    refine ⟨⟨hq.lawful, hq.attempts, hq.severed⟩, ho.1, ?_⟩
    exact .settled ha.ne_refused_of_waiting (hs _)
  | last ha =>
    obtain ⟨hq, hs⟩ := kept_act ha hk ho.2
    refine ⟨?_, owes_expireAt hs⟩
    show Kept b env (State.expireAt _ _).memory _
    rw [memory_expireAt]
    exact hq
  | linger ha =>
    obtain ⟨hq, hs⟩ := waits ha hk ho
    exact ⟨hq, ho.1, .settled ha.ne_refused_of_waiting (hs _)⟩
  | giveUp ha =>
    obtain ⟨hq, hs⟩ := waits ha hk ho
    exact ⟨hq, hs _⟩
  | @close m x limit r =>
    cases hn : State.closingNotice b m x with
    | none => exact ⟨hk, ho⟩
    | some n =>
      have hkind := kind_closingNotice hn
      exact ⟨hk.publish ho n hkind, settled_publish env n r hkind⟩
  | rest => exact ⟨hk, ho⟩

/-- Anything may become of the world, but a cancellation is not taken back. -/
def lasting (env : Surroundings ω ε) : State ε → ω → ω → Prop := fun _ w v =>
  env.cancelled w = true → env.cancelled v = true

/-- Every run of a campaign has such a record. -/
theorem exists_followed {b : Brief ω ε} {env : Surroundings ω ε} {s s' : State ε} {w w' : ω}
    (run : Run (State.step b env) (lasting env) s w s' w') :
    ∃ l, Run (State.step b.recorded env.recorded) (Recording.follow (lasting env)) s (w, [])
      s' (w', l) := by
  refine Recording.exists_run (step_recorded b env) (fun _ w v l hd => ?_) run []
  exact ⟨(Recording.extend (w, l) v).2, hd, rfl⟩

theorem lost_mono {env : Surroundings ω ε} {w v : ω}
    (h : env.cancelled w = true → env.cancelled v = true) {m : Memory}
    (hw : lost env m w = true) : lost env m v = true := by
  simp only [lost, Brief.cancelled, Bool.or_eq_true] at hw ⊢
  exact hw.imp_left (Or.imp_left h)

theorem Kept.follow {b : Brief ω ε} {env : Surroundings ω ε} {s : State ε} {m : Memory}
    {r q : Recording ω (Deed ε)} (hk : Kept b env m r.2)
    (hd : Recording.follow (lasting env) s r q) : Kept b env m q.2 := by
  rcases Recording.eq_nil_or_concat_of_follow hd with ⟨hr, hq⟩ | ⟨l, x, hr, hq⟩
  · rw [hq, ← hr]
    exact hk
  · rw [hr] at hk
    obtain ⟨hl, hx⟩ := each_concat.mp hk.lawful
    rw [hq]
    refine ⟨each_concat.mpr ⟨hl, hx.draw, hx.announcement, hx.next⟩, ?_, ?_⟩
    · rw [hk.attempts, begun_concat, begun_concat]
    · rw [hk.severed, severed_concat, severed_concat]

theorem Settled.follow {env : Surroundings ω ε} {s : State ε} {r q : Recording ω (Deed ε)}
    (h : Settled env r.1 r.2.getLast?) (hd : Recording.follow (lasting env) s r q) :
    Settled env q.1 q.2.getLast? := by
  rcases Recording.eq_nil_or_concat_of_follow hd with ⟨-, hq⟩ | ⟨l, x, hr, hq⟩
  · rw [hq]
    exact nofun
  · rw [hr, List.getLast?_concat] at h
    rw [hq, List.getLast?_concat]
    rintro y ⟨⟩ hann
    exact ⟨rfl, hd.1 (h x rfl hann).2⟩

theorem Awaits.follow {b : Brief ω ε} {env : Surroundings ω ε} {s : State ε}
    {st : Stage Unit ε} {m : Memory} {r q : Recording ω (Deed ε)}
    (h : Awaits b env st m r.1 r.2.getLast?) (hd : Recording.follow (lasting env) s r q) :
    Awaits b env st m q.1 q.2.getLast? := by
  by_cases hst : st = .refused
  · subst hst
    rcases Recording.eq_nil_or_concat_of_follow hd with ⟨hr, -⟩ | ⟨l, x, hr, hq⟩
    · rw [hr] at h
      cases h with
      | settled hst => exact absurd rfl hst
    · rw [hr, List.getLast?_concat] at h
      rw [hq, List.getLast?_concat]
      cases h with
      | announced hx _ he hs => exact .announced hx rfl he hs
      | hushed hx hc => exact .hushed hx (lost_mono hd.1 hc)
      | settled hst => exact absurd rfl hst
  · exact .settled hst ((h.settled_of_ne hst).follow hd)

theorem Owes.follow {b : Brief ω ε} {env : Surroundings ω ε} {s : State ε}
    {r q : Recording ω (Deed ε)} (h : Owes b env s r)
    (hd : Recording.follow (lasting env) s r q) : Owes b env s q := by
  obtain ⟨m, ph, limit⟩ := s
  cases ph with
  | running st | expiring st => exact ⟨h.1, h.2.follow hd⟩
  | closing x | finished x => exact Settled.follow h hd

theorem kept_run {b : Brief ω ε} {env : Surroundings ω ε} {now : Nat} {w : ω} {s : State ε}
    {r : Recording ω (Deed ε)}
    (run : Run (State.step b.recorded env.recorded) (Recording.follow (lasting env))
      (.begin b now) (w, []) s r) : Kept b env s.memory r.2 ∧ Owes b env s r := by
  induction run with
  | refl => exact ⟨⟨each_nil _, rfl, rfl⟩, rfl, .settled nofun nofun⟩
  | step _ ih => exact kept_turn (turn_step b env _ _) ih.1 ih.2
  | drift _ hu ih => exact ⟨ih.1.follow hu, ih.2.follow hu⟩

/-! ## Pairs of announcements and draws -/

/-- Announcements and draws go together, one by one and in order, each pair right after the
attempt that failed for now and under its number. -/
structure Paired (b : Brief ω ε) (l : Record ω ε) : Prop where
  draws : ∀ l₁ x l₂, l = l₁ ++ x :: l₂ → x.deed.isDraw = true →
    ∃ l₀ p a, l₁ = l₀ ++ [p, a] ∧ p.deed.isRefusal b = true ∧
      a.deed.Announces (.ofNat (begun l₁))
  announcements : ∀ l₁ x l₂, l = l₁ ++ x :: l₂ → x.deed.isAnnouncement = true →
    ∃ l₀ p d l₃, l₁ = l₀ ++ [p] ∧ p.deed.isRefusal b = true ∧
      x.deed.Announces (.ofNat (begun l₁)) ∧ l₂ = d :: l₃ ∧ d.deed.isDraw = true

/-- No delay is drawn after an attempt that has cancelled its own token, and no announcement
leaves the campaign cancelled by the time the run goes on. -/
structure Untouched (env : Surroundings ω ε) (l : Record ω ε) : Prop where
  own : ∀ l₁ x l₂, l = l₁ ++ x :: l₂ → x.deed.isDraw = true → severed l₁ = false
  campaign : ∀ x ∈ l, x.deed.isAnnouncement = true → env.cancelled x.after = false

theorem Deed.Announces.isAnnouncement {k : UInt32} {d : Deed ε} (h : d.Announces k) :
    d.isAnnouncement = true := by
  obtain ⟨n, rfl, hn, -⟩ := h
  simpa [Deed.isAnnouncement] using hn

theorem untouched_of_paired {b : Brief ω ε} {env : Surroundings ω ε} {l : Record ω ε}
    (hl : Each (Lawful b env) l) (h : Paired b l) : Untouched env l where
  own l₁ x l₂ heq hx := by
    obtain ⟨l₀, p, a, rfl, -, ha⟩ := h.draws l₁ x l₂ heq hx
    obtain ⟨y, hy, ⟨-, hs⟩ | ⟨hr, -⟩⟩ := (hl _ x l₂ heq).draw hx
    · exact hs
    · obtain rfl : a = y := by simpa using hy
      rw [Deed.isRefusal_of_isAnnouncement ha.isAnnouncement] at hr
      cases hr
  campaign x hmem hx := by
    obtain ⟨l₁, l₂, heq⟩ := List.append_of_mem hmem
    obtain ⟨-, -, d, l₃, -, -, -, rfl, hd⟩ := h.announcements l₁ x l₂ heq hx
    have hnext := (hl (l₁ ++ [x]) d l₃ (by simpa using heq)).next x (by simp) hx
    exact hnext.mp hd

theorem paired_of_untouched {b : Brief ω ε} {env : Surroundings ω ε} {l : Record ω ε}
    (hl : Each (Lawful b env) l) {w : ω} (hlast : Settled env w l.getLast?) (h : Untouched env l) :
    Paired b l where
  draws l₁ x l₂ heq hx := by
    obtain ⟨a, ha, ⟨hann, -⟩ | ⟨-, hs⟩⟩ := (hl l₁ x l₂ heq).draw hx
    · obtain ⟨l₀, rfl⟩ := List.getLast?_eq_some_iff.mp ha
      obtain ⟨-, hk, p, hp, hr⟩ := (hl l₀ a (x :: l₂) (by simpa using heq)).announcement hann
      obtain ⟨l₀, rfl⟩ := List.getLast?_eq_some_iff.mp hp
      refine ⟨l₀, p, a, by simp, hr, ?_⟩
      rw [begun_concat, Deed.isBegin_of_isAnnouncement hann]
      exact hk
    · rw [h.own l₁ x l₂ heq hx] at hs
      cases hs
  announcements l₁ x l₂ heq hx := by
    obtain ⟨-, hk, p, hp, hr⟩ := (hl l₁ x l₂ heq).announcement hx
    obtain ⟨l₀, rfl⟩ := List.getLast?_eq_some_iff.mp hp
    have hc := h.campaign x (by simp [heq]) hx
    cases l₂ with
    | nil =>
      -- a campaign that has returned right after an announcement was cancelled by then
      obtain ⟨hw, hcancel⟩ := hlast x (by simp [heq]) hx
      rw [hw, hcancel] at hc
      cases hc
    | cons d l₃ =>
      have hnext := (hl (l₀ ++ [p] ++ [x]) d l₃ (by simpa using heq)).next x (by simp) hx
      exact ⟨l₀, p, d, l₃, rfl, hr, hk, rfl, hnext.mpr hc⟩

/-- In a campaign that has returned, announcements and draws go together exactly if no attempt
whose failure was followed by a draw had cancelled its own token, and the campaign was not
cancelled between an announcement and the run's next look at it. -/
theorem paired_iff {b : Brief ω ε} {env : Surroundings ω ε} {now : Nat} {w v : ω} {s : State ε}
    {l : Record ω ε} {x : Except (CampaignFailure ε) Unit}
    (run : Run (State.step b.recorded env.recorded) (Recording.follow (lasting env))
      (.begin b now) (w, []) s (v, l)) (hx : s.result? = some x) :
    Paired b l ↔ Untouched env l := by
  obtain ⟨hk, ho⟩ := kept_run run
  obtain ⟨m, ph, limit⟩ := s
  cases ph with
  | finished y => exact ⟨untouched_of_paired hk.lawful, paired_of_untouched hk.lawful ho⟩
  | running st | expiring st | closing y => cases hx

/-- A campaign whose first attempt cancels its own token and is then refused. -/
def selfish : Brief (Rehearsal.World Unit String) String where
  connector := ⟨"selfish", (· == "refused"), id⟩
  settings := .standard
  shared := some Rehearsal.World.source

def selfishWorld : Rehearsal.World Unit String :=
  .initial
    [{ name := "selfish", ownToken := false, audience := .recorder "log", calls := 0,
       flight := none
       script :=
        { steps := [(1, ⟨.no, none, some .attempt, .failed "refused" true⟩)]
          afterwards := ⟨.no, none, none, .ok ()⟩ } }]
    (some ⟨"backoff", ⟨[], .listed ⟨[.ofMillis 100], none, none, 0⟩⟩⟩)

theorem paired_iff_selfish : ∃ s v l,
    Run (State.step selfish.recorded (Rehearsal.surroundings 0).recorded)
      (Recording.follow (lasting (Rehearsal.surroundings 0))) (.begin selfish 0)
      (selfishWorld, []) s (v, l) ∧
    s.result? = some (.ok ()) ∧ ¬ Untouched (Rehearsal.surroundings 0) l ∧ ¬ Paired selfish l := by
  have wait {s q} (run : Run (State.step selfish.recorded (Rehearsal.surroundings 0).recorded)
      (Recording.follow (lasting (Rehearsal.surroundings 0))) (.begin selfish 0)
      (selfishWorld, []) s q) :=
    run.drift (u := q.extend { q.1 with clock := 100 }) ⟨fun h => h, rfl⟩
  have run := (wait (Run.refl.settle (n := 9) rfl)).settle (n := 9) rfl
  refine ⟨_, _, _, run, rfl, ?touched, fun hp => ?touched ((paired_iff run rfl).mp hp)⟩
  intro h
  have hown := h.own [_, _, _] _ [_, _, _, _] rfl
  cases hown rfl

end Reattempt.Campaign
