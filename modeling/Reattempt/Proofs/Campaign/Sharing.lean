import Reattempt.Proofs.Campaign.Announcement
import Reattempt.Proofs.Campaign.Attendance

/-!
# One turn of a campaign that shares its generator

A campaign that shares a generator with others keeps it beside everything else that
its world holds, and reaches it only by its questions. A turn of such a campaign comes
to one of three things: it announces what the generator shows, it draws that, or it
leaves the generator alone. This is said here of any generator on which looking ahead
changes nothing and shows what is drawn next.
-/

namespace Reattempt

/-- Looking ahead changes nothing and shows what is drawn next, whatever the rolls. -/
structure Backoff.Source.Foreseen {κ : Type} (src : Source κ) : Prop where
  peek : ∀ k, (src.peek k).2 = k
  peekSeconds : ∀ k, src.peekSeconds k = wholeSeconds src.peek k
  next : ∀ rolls k, (src.next rolls k).1 = (src.peek k).1

namespace Campaign

open Executor (Stage)
open Backoff (Source)

variable {κ υ ε : Type}

/-- The same surroundings beside something that they do not reach. -/
def Surroundings.beyond (env : Surroundings υ ε) : Surroundings (κ × υ) ε where
  now p := env.now p.2
  wake due p := (env.wake due p.2).map fun v => (p.1, v)
  cancelled p := env.cancelled p.2
  start p := (p.1, env.start p.2)
  poll c p := ((env.poll c p.2).1, p.1, (env.poll c p.2).2)
  publish n p := (p.1, env.publish n p.2)
  pause d p := (p.1, env.pause d p.2)
  roll p := ((env.roll p.2).1, p.1, (env.roll p.2).2)

/-- A campaign that shares a generator with others: its connector, its settings, what surrounds
it, and the time of the clock at which it begins. -/
structure Member (υ ε : Type) where
  connector : Connector ε
  settings : Settings
  surroundings : Surroundings υ ε
  start : Nat

/-- What matters of a campaign between two steps. -/
structure Glance (κ υ ε : Type) where
  stage : Stage Unit ε
  memory : Memory
  world : κ × υ

/-- A campaign in its world. -/
def State.glance (s : State ε) (w : κ × υ) : Glance κ υ ε := ⟨s.phase.stage, s.memory, w⟩

namespace Member

/-- What it is told in advance, the generator being `src`. -/
def brief (m : Member υ ε) (src : Source κ) : Brief (κ × υ) ε :=
  ⟨m.connector, m.settings, some (aside src)⟩

/-- Whether its campaign is cancelled, by its caller or by its deadline. -/
def isCancelled (m : Member υ ε) (expired : Bool) (v : υ) : Bool :=
  m.surroundings.cancelled v || expired

/-- The entry is the end of an attempt that has succeeded, has failed for good, or has left its
campaign cancelled. -/
def Concludes (m : Member υ ε) (expired : Bool) (x : Entry (κ × υ) (Deed ε)) : Prop :=
  ∃ c reply o, x.deed = .polled c reply ∧ reply.outcome = some o ∧
    (o = .ok () ∨ ∃ e, o = .error e ∧
      (m.connector.retryable e = false ∨ m.isCancelled expired x.after.2 = true))

/-- The run has ended, or will with its next step because it is cancelled. -/
def Ceases (m : Member υ ε) (a : Glance κ υ ε) : Prop :=
  (∃ x, a.stage = .ended x) ∨
    a.stage = .refused ∧ m.isCancelled a.memory.expired a.world.2 = true

end Member

/-- An announcement of a delay. -/
structure Foretells (d : Duration) (n : Notice) : Prop where
  kind : n.kind = .backoffScheduled
  delay : n.delay = some d
  seconds : n.retryInSeconds = some d.secs

/-- Nothing is drawn and nothing announced. -/
structure Quiet (m : Member υ ε) (a : Glance κ υ ε) (moved : Bool) (b : Glance κ υ ε)
    (l : Record (κ × υ) ε) : Prop where
  generator : b.world.1 = a.world.1
  entries : ∀ x ∈ l, x.deed.isDraw = false ∧ x.deed.isAnnouncement = false ∧
    (m.Concludes a.memory.expired x → m.Ceases b)
  /-- Who has been refused goes on at once. -/
  held : b.stage = .refused → moved = true
  /-- A run that is refused and not cancelled does not leave it at that. -/
  due : a.stage = .refused → m.isCancelled a.memory.expired a.world.2 = true
  ceases : m.Ceases a → ∃ x, b.stage = .ended x

/-- An attempt has failed for now, and the delay that the generator shows is announced. -/
structure Announced (m : Member υ ε) (src : Source κ) (a : Glance κ υ ε) (moved : Bool)
    (b : Glance κ υ ε) (l : Record (κ × υ) ε) : Prop where
  generator : b.world.1 = a.world.1
  entries : ∃ y x n, l = [y, x] ∧ y.deed.isDraw = false ∧ y.deed.isAnnouncement = false ∧
    ¬ m.Concludes a.memory.expired y ∧ x.deed = .published n ∧ Foretells (src.peek a.world.1).1 n
  moved : moved = true
  before : a.stage = .attempting
  stage : b.stage = .refused
  live : m.isCancelled b.memory.expired b.world.2 = false

/-- The delay that the generator shows is drawn. -/
structure Drawn (m : Member υ ε) (src : Source κ) (a : Glance κ υ ε) (moved : Bool)
    (b : Glance κ υ ε) (l : Record (κ × υ) ε) : Prop where
  generator : ∃ rolls, b.world.1 = (src.next rolls a.world.1).2
  entries : ∃ x, l = [x] ∧ x.deed = .drew (src.peek a.world.1).1
  moved : moved = true
  before : a.stage = .refused
  live : m.isCancelled a.memory.expired a.world.2 = false
  stage : ∃ due, b.stage = .pausing due

/-- What a step of a campaign comes to that shares a generator. -/
inductive Effect (m : Member υ ε) (src : Source κ) (a : Glance κ υ ε) (moved : Bool)
    (b : Glance κ υ ε) (l : Record (κ × υ) ε) : Prop where
  | quiet (h : Quiet m a moved b l)
  | announced (h : Announced m src a moved b l)
  | drawn (h : Drawn m src a moved b l)

def Deed.delay? : Deed ε → Option Duration
  | .drew d => some d
  | _ => none

/-- The delays drawn, in order. -/
def delays (l : Record (κ × υ) ε) : List Duration := l.filterMap (·.deed.delay?)

theorem delays_eq_nil {l : Record (κ × υ) ε} (h : ∀ x ∈ l, x.deed.isDraw = false) :
    delays l = [] := by
  refine List.filterMap_eq_nil_iff.mpr fun x hx => ?_
  have hdraw := h x hx
  cases hd : x.deed with
  | drew d =>
    rw [hd] at hdraw
    cases hdraw
  | began | polled c reply | published n => rfl

/-- Publishing leaves the caller's token alone. -/
def Member.Discreet (m : Member υ ε) : Prop :=
  ∀ n v, m.surroundings.cancelled (m.surroundings.publish n v) = m.surroundings.cancelled v

section Act

variable {m : Member υ ε} {src : Source κ} {mem mem' : Memory} {w u : κ × υ} {d : Duration}
  {r q : Recording (κ × υ) (Deed ε)}

theorem Member.peek_eq (hsrc : src.Foreseen) (h : (m.brief src).peek (mem, w) = (d, mem', u)) :
    d = (src.peek w.1).1 ∧ mem' = mem ∧ u = w := by
  rw [Brief.peek_of_shared rfl] at h
  obtain ⟨rfl, rfl, rfl⟩ := by simpa only [Prod.mk.injEq] using h
  exact ⟨rfl, rfl, Prod.ext (hsrc.peek w.1) rfl⟩

theorem Member.peekSeconds_eq {s : UInt64} (hsrc : src.Foreseen)
    (h : (m.brief src).peekSeconds (mem, w) = (s, mem', u)) :
    s = (src.peek w.1).1.secs ∧ mem' = mem ∧ u = w := by
  rw [Brief.peekSeconds_of_shared rfl] at h
  obtain ⟨rfl, rfl, rfl⟩ := by simpa only [Prod.mk.injEq] using h
  have hseconds := hsrc.peekSeconds w.1
  exact ⟨congrArg (·.1) hseconds, rfl,
    Prod.ext ((congrArg (·.2) hseconds).trans (hsrc.peek w.1)) rfl⟩

theorem Member.next_eq (hsrc : src.Foreseen)
    (h : (m.brief src).next m.surroundings.beyond (mem, w) = (d, mem', u)) :
    d = (src.peek w.1).1 ∧ mem' = mem ∧ ∃ rolls, u.1 = (src.next rolls w.1).2 := by
  rw [Brief.next_of_shared rfl rfl] at h
  obtain ⟨rfl, rfl, rfl⟩ := by simpa only [Prod.mk.injEq] using h
  exact ⟨hsrc.next _ w.1, rfl, _, rfl⟩

theorem Polled.generator {reply : Reply ε} (hp : Polled m.surroundings.beyond mem r reply q) :
    q.1.1 = r.1.1 := (congrArg (·.2.1) hp.answer).symm

/-- A poll is all that it notes. -/
theorem Polled.eq_singleton {reply : Reply ε}
    (hp : Polled m.surroundings.beyond mem (w, []) reply q) :
    q.2 = [⟨.polled (lost m.surroundings.beyond mem w) reply, w, q.1⟩] := by
  rw [hp.noted]
  rfl

theorem Polled.forall_mem {reply : Reply ε} {P : Entry (κ × υ) (Deed ε) → Prop}
    (hp : Polled m.surroundings.beyond mem (w, []) reply q)
    (h : P ⟨.polled (lost m.surroundings.beyond mem w) reply, w, q.1⟩) : ∀ x ∈ q.2, P x := by
  rw [hp.eq_singleton]
  exact List.forall_mem_singleton.mpr h

/-- An attempt whose token is not cancelled has not left its campaign cancelled. -/
theorem Member.isCancelled_of_not_lost (h : lost m.surroundings.beyond mem w = false) :
    m.isCancelled mem.expired w.2 = false := (Bool.or_eq_false_iff.mp h).1

/-- An attempt that goes on, or that has failed for now in a campaign that goes on. -/
theorem Member.not_concludes {expired c : Bool} {reply : Reply ε} {v v' : κ × υ}
    (h : ∀ o, reply.outcome = some o → ∃ e, o = .error e ∧ m.connector.retryable e = true ∧
      m.isCancelled expired v'.2 = false) :
    ¬ m.Concludes expired ⟨.polled c reply, v, v'⟩ := by
  rintro ⟨c, reply, o, hx, ho, hends⟩
  obtain ⟨-, rfl⟩ := by simpa only [Deed.polled.injEq] using hx
  obtain ⟨e, rfl, he, hlive⟩ := h o ho
  rcases hends with hok | ⟨e', he', hfatal | hcancelled⟩
  · cases hok
  · obtain rfl := Except.error.inj he'
    rw [he] at hfatal
    cases hfatal
  · rw [hlive] at hcancelled
    cases hcancelled

/-- What was published ends no attempt. -/
theorem Member.not_concludes_published {expired : Bool} {n : Notice} {v v' : κ × υ} :
    ¬ m.Concludes expired ⟨.published n, v, v'⟩ := by
  rintro ⟨c, reply, o, hx, -⟩
  cases hx

/-- What is published once all else is noted comes last. -/
theorem forall_mem_publish {P : Entry (κ × υ) (Deed ε) → Prop} {env : Surroundings (κ × υ) ε}
    {n : Notice} (hq : ∀ x ∈ q.2, P x) (hn : P ⟨.published n, q.1, env.publish n q.1⟩) :
    ∀ x ∈ (env.recorded.publish n q).2, P x :=
  List.forall_mem_append.mpr ⟨hq, List.forall_mem_singleton.mpr hn⟩

/-- A run that goes on and has not been refused does not cease. -/
theorem Member.not_ceases {st : Stage Unit ε} (hst : st ≠ .refused) (hresult : st.result? = none) :
    ¬ m.Ceases ⟨st, mem, w⟩ := by
  rintro (⟨x, rfl⟩ | ⟨h, -⟩)
  · cases hresult
  · exact hst h

theorem effect_act (hm : m.Discreet) (hsrc : src.Foreseen) {st : Stage Unit ε}
    {p : Progress (Stage Unit ε) (Memory × Recording (κ × υ) (Deed ε))}
    (ha : Act (m.brief src) m.surroundings.beyond st mem (w, []) p) :
    Effect m src ⟨st, mem, w⟩ p.moved ⟨p.state, p.world.1, p.world.2.1⟩ p.world.2.2 := by
  -- what a run that goes on has to say of its ceasing
  have hgoes {b : Glance κ υ ε} {st : Stage Unit ε} (hst : st ≠ .refused)
      (hresult : st.result? = none) (h : m.Ceases ⟨st, mem, w⟩) : ∃ x, b.stage = .ended x :=
    absurd h (Member.not_ceases hst hresult)
  cases ha with
  | stop hs hc =>
    exact .quiet ⟨rfl, List.forall_mem_nil _, nofun, fun _ => hc, fun _ => ⟨_, rfl⟩⟩
  | begin hc =>
    refine .quiet ⟨rfl, ?_, nofun, nofun, hgoes nofun rfl⟩
    refine forall_mem_publish (List.forall_mem_singleton.mpr ⟨rfl, rfl, ?_⟩) ⟨rfl, rfl, ?_⟩
    · rintro ⟨c, reply, o, hx, -⟩
      cases hx
    · exact fun h => absurd h Member.not_concludes_published
  | pend hp =>
    refine .quiet ⟨hp.generator, hp.forall_mem ⟨rfl, rfl, ?_⟩, nofun, nofun, hgoes nofun rfl⟩
    exact fun h => absurd h (Member.not_concludes nofun)
  | connect hp | fail hp =>
    refine .quiet ⟨hp.generator, forall_mem_publish (hp.forall_mem ⟨rfl, rfl, ?_⟩) ⟨rfl, rfl, ?_⟩,
      nofun, nofun, hgoes nofun rfl⟩
    · exact fun _ => .inl ⟨_, rfl⟩
    · exact fun h => absurd h Member.not_concludes_published
  | @hush _ _ q e own hp he hc =>
    refine .quiet ⟨hp.generator, hp.forall_mem ⟨rfl, rfl, ?_⟩, fun _ => rfl, nofun,
      hgoes nofun rfl⟩
    intro hconcludes
    refine .inr ⟨rfl, ?_⟩
    by_contra hlive
    refine Member.not_concludes (fun o ho => ?_) hconcludes
    obtain rfl := Option.some.inj ho
    exact ⟨e, rfl, he, Bool.eq_false_iff.mpr hlive⟩
  | @announce _ m₁ m₂ _ q e own d s u₁ u₂ hp he hc hd hs =>
    have hlive := Member.isCancelled_of_not_lost hc
    obtain ⟨rfl, rfl, rfl⟩ := Member.peek_eq hsrc hd
    obtain ⟨rfl, rfl, rfl⟩ := Member.peekSeconds_eq hsrc hs
    refine .announced ⟨hp.generator, ⟨_, _, _, congrArg (· ++ _) hp.eq_singleton, rfl, rfl, ?_, rfl,
      ?_⟩, rfl, rfl, rfl, ?_⟩
    · refine Member.not_concludes fun o ho => ?_
      obtain rfl := Option.some.inj ho
      exact ⟨e, rfl, he, hlive⟩
    · rw [← hp.generator]
      exact ⟨rfl, rfl, rfl⟩
    · rw [← hlive]
      exact congrArg (· || _) (hm _ _)
  | draw hc hn =>
    obtain ⟨rfl, rfl, hgen⟩ := Member.next_eq hsrc hn
    exact .drawn ⟨hgen, ⟨_, rfl, rfl⟩, rfl, rfl, hc, _, rfl⟩
  | wake hc hw =>
    obtain ⟨v, -, rfl⟩ := Option.map_eq_some_iff.mp hw
    exact .quiet ⟨rfl, List.forall_mem_nil _, nofun, nofun, hgoes nofun rfl⟩
  | sleep => exact .quiet ⟨rfl, List.forall_mem_nil _, nofun, nofun, hgoes nofun rfl⟩
  | rest => exact .quiet ⟨rfl, List.forall_mem_nil _, nofun, nofun, fun _ => ⟨_, rfl⟩⟩

end Act

section Turn

variable {m : Member υ ε} {src : Source κ} {a b : Glance κ υ ε} {moved : Bool}
  {l : Record (κ × υ) ε} {mem : Memory} {w : κ × υ}

theorem glance_runAt (limit : Option (Nat × Duration)) (st st' : Stage Unit ε) :
    (State.runAt ⟨mem, .running st, limit⟩ st').glance w = ⟨st', mem, w⟩ := by
  rw [State.glance, stage_runAt, memory_runAt]

/-- A run that waits has neither announced nor drawn. -/
theorem Effect.quiet_of_waiting (h : Effect m src a false b l) : Quiet m a false b l := by
  cases h with
  | quiet h => exact h
  | announced h => exact absurd h.moved nofun
  | drawn h => exact absurd h.moved nofun

/-- A campaign may be ended where nothing was drawn or announced. -/
theorem Quiet.close (h : Quiet m a moved b l) {moved' : Bool} {mem' : Memory} {u : κ × υ}
    {x : Except (CampaignFailure ε) Unit} (hu : u.1 = b.world.1) :
    Quiet m a moved' ⟨.ended x, mem', u⟩ l := by
  refine ⟨hu.trans h.generator, fun y hy => ?_, nofun, h.due, fun _ => ⟨x, rfl⟩⟩
  obtain ⟨hdraw, hann, -⟩ := h.entries y hy
  exact ⟨hdraw, hann, fun _ => .inl ⟨x, rfl⟩⟩

/-- It makes no difference with which result a run has ended. -/
theorem Effect.ended {x y : Except (CampaignFailure ε) Unit}
    (h : Effect m src a moved ⟨.ended x, mem, w⟩ l) :
    Effect m src a moved ⟨.ended y, mem, w⟩ l := by
  cases h with
  | quiet h => exact .quiet (h.close rfl)
  | announced h => exact absurd h.stage nofun
  | drawn h =>
    obtain ⟨due, hdue⟩ := h.stage
    cases hdue

theorem Effect.expireAt {limit : Option (Nat × Duration)} {st st' : Stage Unit ε}
    (h : Effect m src a moved ⟨st', mem, w⟩ l) :
    Effect m src a moved ((State.expireAt ⟨mem, .expiring st, limit⟩ st').glance w) l := by
  cases st' with
  | ended x =>
    match x with
    | .ok () => exact h
    | .error _ => exact h.ended
  | ready | attempting | refused | pausing due => exact h

/-- When the deadline passes while a run waits, the run goes on where it is. -/
theorem Quiet.expire {st : Stage Unit ε} (h : Quiet m a false ⟨st, mem, w⟩ l) {mem' : Memory}
    {u : κ × υ} (hu : u.1 = w.1) : Quiet m a true ⟨st, mem', u⟩ l := by
  refine ⟨hu.trans h.generator, fun x hx => ?_, fun _ => rfl, h.due, h.ceases⟩
  obtain ⟨hdraw, hann, hceases⟩ := h.entries x hx
  refine ⟨hdraw, hann, fun hx => ?_⟩
  rcases hceases hx with hended | ⟨hrefused, -⟩
  · exact .inl hended
  · exact absurd (h.held hrefused) nofun

/-- What happens when the run has ended. -/
theorem Quiet.of_ended {x y : Except (CampaignFailure ε) Unit} (ha : a.stage = .ended x)
    (hb : b.stage = .ended y) (hgen : b.world.1 = a.world.1)
    (hl : ∀ z ∈ l, z.deed.isDraw = false ∧ z.deed.isAnnouncement = false) :
    Quiet m a moved b l where
  generator := hgen
  entries z hz := ⟨(hl z hz).1, (hl z hz).2, fun _ => .inl ⟨y, hb⟩⟩
  held h := by
    rw [hb] at h
    cases h
  due h := by
    rw [ha] at h
    cases h
  ceases _ := ⟨y, hb⟩

section Step

variable {mem' : Memory} {st st' : Stage Unit ε} {q : Recording (κ × υ) (Deed ε)}

theorem effect_of_moving (hm : m.Discreet) (hsrc : src.Foreseen)
    (ha : Act (m.brief src) m.surroundings.beyond st mem (w, []) (.moving st' (mem', q))) :
    Effect m src ⟨st, mem, w⟩ true ⟨st', mem', q.1⟩ q.2 := effect_act hm hsrc ha

theorem quiet_of_waiting (hm : m.Discreet) (hsrc : src.Foreseen)
    (ha : Act (m.brief src) m.surroundings.beyond st mem (w, []) (.waiting st' (mem', q))) :
    Quiet m ⟨st, mem, w⟩ false ⟨st, mem', q.1⟩ q.2 := by
  obtain rfl := ha.eq_of_waiting
  exact (effect_act hm hsrc ha).quiet_of_waiting

end Step

theorem effect_turn (hm : m.Discreet) (hsrc : src.Foreseen) {s : State ε}
    {p : Progress (State ε) (Recording (κ × υ) (Deed ε))}
    (ht : Turn (m.brief src) m.surroundings.beyond s (w, []) p) :
    Effect m src (s.glance w) p.moved (p.state.glance p.world.1) p.world.2 := by
  cases ht with
  | @run mem mem' st st' limit _ q ha =>
    have h := effect_of_moving hm hsrc ha
    rw [← glance_runAt limit st st'] at h
    exact h
  | last ha => exact (effect_of_moving hm hsrc ha).expireAt
  | stay ha | linger ha => exact .quiet (quiet_of_waiting hm hsrc ha)
  | expire ha hw =>
    obtain ⟨v, -, rfl⟩ := Option.map_eq_some_iff.mp hw
    exact .quiet ((quiet_of_waiting hm hsrc ha).expire rfl)
  | giveUp ha hw =>
    obtain ⟨v, -, rfl⟩ := Option.map_eq_some_iff.mp hw
    exact .quiet ((quiet_of_waiting hm hsrc ha).close rfl)
  | @close mem x =>
    cases hn : State.closingNotice (m.brief src) mem x with
    | none => exact .quiet (.of_ended rfl rfl rfl (List.forall_mem_nil _))
    | some n =>
      have hkind := kind_closingNotice hn
      refine .quiet (.of_ended rfl rfl rfl (List.forall_mem_singleton.mpr ⟨rfl, ?_⟩))
      simpa [Deed.isAnnouncement] using hkind
  | rest => exact .quiet (.of_ended rfl rfl rfl (List.forall_mem_nil _))

/-! ## Readings of an effect -/

namespace Effect

/-- Who has been refused goes on at once. -/
theorem moved_of_refused (h : Effect m src a moved b l) (hb : b.stage = .refused) :
    moved = true := by
  cases h with
  | quiet h => exact h.held hb
  | announced h | drawn h => exact h.moved

/-- Who has been refused and is not cancelled draws. -/
theorem drawn_of_refused (h : Effect m src a moved b l) (hstage : a.stage = .refused)
    (hlive : m.isCancelled a.memory.expired a.world.2 = false) : Drawn m src a moved b l := by
  cases h with
  | quiet h =>
    rw [h.due hstage] at hlive
    cases hlive
  | announced h =>
    rw [h.before] at hstage
    cases hstage
  | drawn h => exact h

theorem quiet_of_ceases (h : Effect m src a moved b l) (ha : m.Ceases a) :
    Quiet m a moved b l := by
  cases h with
  | quiet h => exact h
  | announced h =>
    rcases ha with ⟨x, hx⟩ | ⟨hx, -⟩ <;> rw [h.before] at hx <;> cases hx
  | drawn h =>
    rcases ha with ⟨x, hx⟩ | ⟨-, hx⟩
    · rw [h.before] at hx
      cases hx
    · rw [h.live] at hx
      cases hx

theorem quiet_of_concludes (h : Effect m src a moved b l) {x : Entry (κ × υ) (Deed ε)} (hx : x ∈ l)
    (hends : m.Concludes a.memory.expired x) : Quiet m a moved b l := by
  cases h with
  | quiet h => exact h
  | announced h =>
    obtain ⟨y, z, n, rfl, -, -, hy, hz, -⟩ := h.entries
    obtain ⟨c, reply, o, hdeed, -⟩ := id hends
    rcases List.mem_pair.mp hx with rfl | rfl
    · exact absurd hends hy
    · rw [hz] at hdeed
      cases hdeed
  | drawn h =>
    obtain ⟨y, rfl, hy⟩ := h.entries
    obtain ⟨c, reply, o, hdeed, -⟩ := hends
    rw [List.mem_singleton.mp hx, hy] at hdeed
    cases hdeed

theorem announced_of_isAnnouncement (h : Effect m src a moved b l) {x : Entry (κ × υ) (Deed ε)}
    (hx : x ∈ l) (hann : x.deed.isAnnouncement = true) : Announced m src a moved b l := by
  cases h with
  | quiet h =>
    obtain ⟨-, hx, -⟩ := h.entries x hx
    rw [hx] at hann
    cases hann
  | announced h => exact h
  | drawn h =>
    obtain ⟨y, rfl, hy⟩ := h.entries
    rw [List.mem_singleton.mp hx, hy] at hann
    cases hann

/-- The delays drawn are what the generator answers. -/
theorem draws_eq (h : Effect m src a moved b l) (hsrc : src.Foreseen) :
    ∃ rolls, src.draws rolls a.world.1 = (delays l, b.world.1) := by
  cases h with
  | quiet h =>
    have hnone : delays l = [] := delays_eq_nil fun x hx => (h.entries x hx).1
    exact ⟨[], by rw [hnone, h.generator]; rfl⟩
  | announced h =>
    obtain ⟨y, x, n, rfl, hy, -, -, hx, -⟩ := h.entries
    have hnone : delays [y, x] = [] := by
      refine delays_eq_nil (List.forall_mem_cons.mpr ⟨hy, List.forall_mem_singleton.mpr ?_⟩)
      rw [hx]
      rfl
    exact ⟨[], by rw [hnone, h.generator]; rfl⟩
  | drawn h =>
    obtain ⟨x, rfl, hx⟩ := h.entries
    obtain ⟨rolls, hrolls⟩ := h.generator
    have hone : delays [x] = [(src.next rolls a.world.1).1] := by
      simp [delays, hx, Deed.delay?, hsrc.next]
    exact ⟨[rolls], by rw [hone, hrolls]; rfl⟩

end Effect

end Turn

end Campaign

end Reattempt
