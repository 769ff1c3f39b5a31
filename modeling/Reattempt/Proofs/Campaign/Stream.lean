import Reattempt.Proofs.Campaign.Deadline

/-!
# The stream of notices

What a campaign publishes falls into blocks, one for each attempt, numbered from
1 without gaps. An attempt is said to begin, and at most one more notice says
what has become of it. At most one notice of the campaign itself comes after the
blocks. Surroundings may do anything, at any time, and whatever was published
before the campaign began makes no difference.
-/

namespace Reattempt.Campaign

open Executor (Stage)

variable {ω ε : Type}

/-! ## Connecting -/

/-- How a deed changes whether an attempt has begun that has not yet connected, and how often
connecting was tried. An attempt connects when it is polled for the first time. -/
def Deed.connect : Bool × Nat → Deed ε → Bool × Nat
  | (_, n), .began => (true, n)
  | (true, n), .polled .. => (false, n + 1)
  | c, _ => c

/-- Whether the last attempt has still to connect, and how often connecting was tried. -/
def connecting (l : Record ω ε) : Bool × Nat := l.foldl (fun c x => x.deed.connect c) (false, 0)

/-- How often connecting was tried. -/
def connects (l : Record ω ε) : Nat := (connecting l).2

@[simp] theorem connecting_concat (l : Record ω ε) (x : Entry ω (Deed ε)) :
    connecting (l ++ [x]) = x.deed.connect (connecting l) := by
  simp [connecting, List.foldl_append]

/-! ## Blocks -/

/-- The notices of attempt `k`, of which at most one says what has become of it. -/
def block (k : Nat) (said : Option EventKind) : List (EventKind × Nat) :=
  (.attemptStarting, k) :: said.toList.map (·, k)

/-- The notices of all attempts, given what was said of each. -/
def blocks (said : List (Option EventKind)) : List (EventKind × Nat) :=
  (said.mapIdx fun i o => block (i + 1) o).flatten

theorem blocks_concat (said : List (Option EventKind)) (o : Option EventKind) :
    blocks (said ++ [o]) = blocks said ++ block (said.length + 1) o := by
  simp [blocks, List.mapIdx_concat]

theorem blocks_concat_some (said : List (Option EventKind)) (k : EventKind) :
    blocks (said ++ [some k]) = blocks (said ++ [none]) ++ [(k, said.length + 1)] := by
  simp [blocks_concat, block]

theorem le_length_of_mem_blocks {said : List (Option EventKind)} {p : EventKind × Nat}
    (h : p ∈ blocks said) : p.2 ≤ said.length := by
  obtain ⟨ps, hps, hp⟩ := List.mem_flatten.mp h
  obtain ⟨i, hi, rfl⟩ := List.mem_mapIdx.mp hps
  have hk : p.2 = i + 1 := by
    rcases List.mem_cons.mp hp with rfl | hp
    · rfl
    · obtain ⟨k, -, rfl⟩ := List.mem_map.mp hp
      rfl
  omega

theorem kind_of_mem_blocks {said : List (Option EventKind)} {p : EventKind × Nat}
    (h : p ∈ blocks said) : p.1 = .attemptStarting ∨ some p.1 ∈ said := by
  obtain ⟨ps, hps, hp⟩ := List.mem_flatten.mp h
  obtain ⟨i, hi, rfl⟩ := List.mem_mapIdx.mp hps
  rcases List.mem_cons.mp hp with rfl | hp
  · exact .inl rfl
  · obtain ⟨k, hk, rfl⟩ := List.mem_map.mp hp
    refine .inr ?_
    rw [← Option.mem_toList.mp hk]
    exact List.getElem_mem hi

/-- Nothing was said of an attempt, or only that there will be another one. -/
def Pending (o : Option EventKind) : Prop := o = none ∨ o = some .backoffScheduled

def AllPending (said : List (Option EventKind)) : Prop := ∀ o ∈ said, Pending o

theorem allPending_concat {said : List (Option EventKind)} {o : Option EventKind} :
    AllPending (said ++ [o]) ↔ AllPending said ∧ Pending o := by
  simp [AllPending, or_imp, forall_and]

/-! ## What was published -/

/-- The kind of a notice, with the number of its attempt. -/
def mark (n : Notice) : EventKind × Option UInt32 := (n.kind, n.attempt)

def numbered (p : EventKind × Nat) : EventKind × Option UInt32 := (p.1, some (.ofNat p.2))

/-- What was said of each attempt, and at last of the campaign, is what was published. -/
structure Narrated (b : Brief ω ε) (l : Record ω ε) (said : List (Option EventKind))
    (closing : Option EventKind) : Prop where
  marks : (notices l).map mark = (blocks said ++ closing.toList.map (·, said.length)).map numbered
  named : ∀ n ∈ notices l, n.connector = some b.connector.name

namespace Narrated

variable {b : Brief ω ε} {l : Record ω ε} {r q : Recording ω (Deed ε)}
  {said : List (Option EventKind)} {closing : Option EventKind}

theorem quiet (h : Narrated b l said closing) {x : Entry ω (Deed ε)}
    (hn : x.deed.notice? = none) : Narrated b (l ++ [x]) said closing := by
  have hnotices : notices (l ++ [x]) = notices l := by simp [hn]
  exact ⟨hnotices ▸ h.marks, hnotices ▸ h.named⟩

theorem polled {env : Surroundings ω ε} {m : Memory} {reply : Reply ε}
    (h : Narrated b r.2 said closing) (hp : Polled env m r reply q) :
    Narrated b q.2 said closing := by
  rw [hp.noted]
  exact h.quiet rfl

/-- One more notice says one thing more. -/
theorem publish {said' : List (Option EventKind)} {closing' : Option EventKind}
    (h : Narrated b r.2 said closing) (env : Surroundings ω ε) {n : Notice} {k : Nat}
    (hname : n.connector = some b.connector.name) (hk : n.attempt = some (.ofNat k))
    (hmarks : blocks said' ++ closing'.toList.map (·, said'.length) =
      blocks said ++ closing.toList.map (·, said.length) ++ [(n.kind, k)]) :
    Narrated b (env.recorded.publish n r).2 said' closing' := by
  have hnotices : notices (env.recorded.publish n r).2 = notices r.2 ++ [n] := notices_concat _ _
  constructor
  · rw [hnotices, hmarks, List.map_append, h.marks, @List.map_append _ _ _ _ [(n.kind, k)]]
    simp [mark, numbered, hk]
  · intro m hm
    rw [hnotices] at hm
    rcases List.mem_append.mp hm with hm | hm
    · exact h.named m hm
    · rwa [List.mem_singleton.mp hm]

end Narrated

/-- How what was said of the attempts goes with the stage of the run. -/
inductive Tale : Stage Unit ε → List (Option EventKind) → Prop where
  | between {st : Stage Unit ε} {said : List (Option EventKind)} (hst : st.Checks)
      (h : AllPending said) : Tale st said
  | attempting {said : List (Option EventKind)} (h : AllPending said) :
      Tale .attempting (said ++ [none])
  | connected {said : List (Option EventKind)} (h : AllPending said) :
      Tale (.ended (.ok ())) (said ++ [some .connected])
  | failed {said : List (Option EventKind)} {e : ε} (h : AllPending said) :
      Tale (.ended (.error (.fatal e))) (said ++ [some .connectFailed])
  | canceled {said : List (Option EventKind)} (h : AllPending said) :
      Tale (.ended (.error .canceled)) said

theorem Tale.pending {st : Stage Unit ε} {said : List (Option EventKind)} (h : Tale st said)
    (hst : st.result? = none) : AllPending said := by
  cases h with
  | between _ h => exact h
  | attempting h => exact allPending_concat.mpr ⟨h, .inl rfl⟩
  | connected | failed | canceled => cases hst

theorem Tale.front {said : List (Option EventKind)} (h : Tale (ε := ε) .attempting said) :
    ∃ front, said = front ++ [none] ∧ AllPending front := by
  cases h with
  | between hst => exact False.elim hst
  | attempting h => exact ⟨_, rfl, h⟩

section Act

variable {b : Brief ω ε} {env : Surroundings ω ε} {st : Stage Unit ε} {m : Memory}
  {r q : Recording ω (Deed ε)} {said : List (Option EventKind)}
  {p : Progress (Stage Unit ε) (Memory × Recording ω (Deed ε))}

/-- What an attempt has come to takes the open place in the last block. -/
theorem narrated_outcome {reply : Reply ε} (hn : Narrated b r.2 said none)
    (hlength : said.length = begun r.2) (ht : Tale (ε := ε) .attempting said) (hm : Counts m r.2)
    (hp : Polled env m r reply q) (u : ω) {n : Notice}
    (hname : n.connector = some b.connector.name) (hk : n.attempt = some m.attempts) :
    ∃ front, AllPending front ∧
      Narrated b (env.recorded.publish n (q.goOn u)).2 (front ++ [some n.kind]) none ∧
      (front ++ [some n.kind]).length = begun (env.recorded.publish n (q.goOn u)).2 := by
  obtain ⟨front, rfl, hfront⟩ := ht.front
  have hnumber : front.length + 1 = begun r.2 := by rw [← hlength, List.length_append]; rfl
  refine ⟨front, hfront, ?_, ?_⟩
  · have hq : Narrated b q.2 (front ++ [none]) none := hn.polled hp
    refine Narrated.publish (r := q.goOn u) hq env (k := front.length + 1) hname ?_ ?_
    · rw [hk, hm, hnumber]
    · simp [blocks_concat_some]
  · rw [begun_publish, List.length_append]
    exact hnumber.trans (begun_polled hp).symm

/-- Each attempt that begins opens a block, and what it comes to is said in that block. -/
theorem narrated_act (ha : Act b env st m r p) (hm : Counts m r.2)
    (hn : Narrated b r.2 said none) (hlength : said.length = begun r.2) (ht : Tale st said) :
    ∃ said', Narrated b p.world.2.2 said' none ∧ said'.length = begun p.world.2.2 ∧
      Tale p.state said' := by
  cases ha with
  | stop hs =>
    refine ⟨said, hn, hlength, .canceled (ht.pending ?_)⟩
    cases st with
    | ready | refused | pausing due => rfl
    | attempting | ended x => exact False.elim hs
  | begin =>
    have hstart := begun_start env r
    refine ⟨said ++ [none], ?_, ?_, .attempting (ht.pending rfl)⟩
    · refine Narrated.publish (r := env.recorded.start r) (hn.quiet rfl) env
        (k := said.length + 1) rfl ?_ ?_
      · rw [hlength, ← hstart]
        exact congrArg some (counts_start hm env)
      · simp only [blocks_concat, block, Option.toList_none, List.map_nil, List.append_nil]
        rfl
    · rw [List.length_append, hlength]
      exact hstart.symm.trans (begun_publish env _ _).symm
  | pend hp => exact ⟨said, hn.polled hp, hlength.trans (begun_polled hp).symm, ht⟩
  | @connect _ _ q own hp =>
    obtain ⟨front, hfront, hq, hl⟩ := narrated_outcome hn hlength ht hm hp q.1
      (n := b.notice .connected (m.heard own)) rfl rfl
    exact ⟨_, hq, hl, .connected hfront⟩
  | @fail _ _ q e own hp =>
    obtain ⟨front, hfront, hq, hl⟩ := narrated_outcome hn hlength ht hm hp q.1
      (n := b.failure (m.heard own) e) rfl rfl
    exact ⟨_, hq, hl, .failed hfront⟩
  | hush hp =>
    exact ⟨said, hn.polled hp, hlength.trans (begun_polled hp).symm, .between trivial (ht.pending rfl)⟩
  | @announce _ m₁ m₂ _ q e own d s _ u hp _ _ hd hs =>
    have hattempts : m₂.attempts = m.attempts := by
      rw [Brief.memory_of_peekSeconds hs, Brief.memory_of_peek hd, Memory.heard]
    obtain ⟨front, hfront, hq, hl⟩ := narrated_outcome hn hlength ht hm hp u
      (n := b.announcement m₂ d s e) rfl (congrArg some hattempts)
    refine ⟨_, hq, hl, .between trivial ?_⟩
    exact allPending_concat.mpr ⟨hfront, .inr rfl⟩
  | @draw _ _ _ d u =>
    have hl : begun (r.2 ++ [⟨.drew d, u, env.pause d u⟩]) = begun r.2 := begun_concat _ _
    refine ⟨said, hn.quiet (x := ⟨.drew d, u, env.pause d u⟩) rfl, hlength.trans hl.symm, ?_⟩
    exact .between trivial (ht.pending rfl)
  | wake | sleep => exact ⟨said, hn, hlength, .between trivial (ht.pending rfl)⟩
  | rest => exact ⟨said, hn, hlength, ht⟩

end Act

/-! ## Campaigns -/

/-- What a campaign itself says of its end. -/
def closingKind : Except (CampaignFailure ε) Unit → Option EventKind
  | .error .canceled => some .canceled
  | .error (.deadlineExceeded _) => some .deadlineExceeded
  | _ => none

/-- How what was said of the attempts goes with the result of a campaign. -/
inductive Ends : Except (CampaignFailure ε) Unit → List (Option EventKind) → Prop where
  | connected {said : List (Option EventKind)} (h : AllPending said) :
      Ends (.ok ()) (said ++ [some .connected])
  | failed {said : List (Option EventKind)} {e : ε} (h : AllPending said) :
      Ends (.error (.fatal e)) (said ++ [some .connectFailed])
  | canceled {said : List (Option EventKind)} (h : AllPending said) : Ends (.error .canceled) said
  | late {said : List (Option EventKind)} {d : Duration} (h : AllPending said) :
      Ends (.error (.deadlineExceeded d)) said
  /-- An attempt has failed for good after the deadline had passed. -/
  | lateFailure {said : List (Option EventKind)} {d : Duration} (h : AllPending said) :
      Ends (.error (.deadlineExceeded d)) (said ++ [some .connectFailed])

/-- How what was said goes with the phase of a campaign. -/
inductive Reaches :
    Phase ε → List (Option EventKind) → Option EventKind → Prop where
  | running {st : Stage Unit ε} {said : List (Option EventKind)} (hst : st.result? = none)
      (h : Tale st said) : Reaches (.running st) said none
  | expiring {st : Stage Unit ε} {said : List (Option EventKind)} (hst : st.result? = none)
      (h : Tale st said) : Reaches (.expiring st) said none
  | closing {x : Except (CampaignFailure ε) Unit} {said : List (Option EventKind)}
      (h : Ends x said) : Reaches (.closing x) said none
  | finished {x : Except (CampaignFailure ε) Unit} {said : List (Option EventKind)}
      (h : Ends x said) : Reaches (.finished x) said (closingKind x)

theorem reaches_runAt {st : Stage Unit ε} {said : List (Option EventKind)} (h : Tale st said)
    (s : State ε) : Reaches (s.runAt st).phase said none := by
  cases st with
  | ended x =>
    refine .closing ?_
    cases h with
    | between hst => exact False.elim hst
    | connected h => exact .connected h
    | failed h => exact .failed h
    | canceled h => exact .canceled h
  | ready | attempting | refused | pausing due => exact .running rfl h

theorem reaches_expireAt {st : Stage Unit ε} {said : List (Option EventKind)} (h : Tale st said)
    (s : State ε) : Reaches (s.expireAt st).phase said none := by
  cases st with
  | ended x =>
    cases h with
    | between hst => exact False.elim hst
    | connected h => exact .closing (.connected h)
    | failed h => exact .closing (.lateFailure h)
    | canceled h => exact .closing (.late h)
  | ready | attempting | refused | pausing due => exact .expiring rfl h

section Turn

variable {b : Brief ω ε} {env : Surroundings ω ε} {s : State ε} {r : Recording ω (Deed ε)}
  {said : List (Option EventKind)} {closing : Option EventKind}

/-- What a campaign says of its end bears the number of its last attempt. -/
theorem closingNotice_eq (b : Brief ω ε) (m : Memory) (x : Except (CampaignFailure ε) Unit) :
    State.closingNotice b m x = none ∧ closingKind x = none ∨
      ∃ n, State.closingNotice b m x = some n ∧ closingKind x = some n.kind ∧
        n.connector = some b.connector.name ∧ n.attempt = some m.attempts := by
  match x with
  | .ok () | .error (.fatal e) => exact .inl ⟨rfl, rfl⟩
  | .error .canceled | .error (.deadlineExceeded d) => exact .inr ⟨_, rfl, rfl, rfl, rfl⟩

theorem narrated_turn {p : Progress (State ε) (Recording ω (Deed ε))} (ht : Turn b env s r p)
    (hm : Counts s.memory r.2) (hn : Narrated b r.2 said closing) (hlength : said.length = begun r.2)
    (hs : Reaches s.phase said closing) :
    ∃ said' closing', Narrated b p.world.2 said' closing' ∧ said'.length = begun p.world.2 ∧
      Reaches p.state.phase said' closing' := by
  cases ht with
  | run ha =>
    cases hs with
    | running _ h =>
      obtain ⟨said', hq, hl, h'⟩ := narrated_act ha hm hn hlength h
      exact ⟨said', none, hq, hl, reaches_runAt h' _⟩
  | last ha =>
    cases hs with
    | expiring _ h =>
      obtain ⟨said', hq, hl, h'⟩ := narrated_act ha hm hn hlength h
      exact ⟨said', none, hq, hl, reaches_expireAt h' _⟩
  | stay ha =>
    cases hs with
    | running hst h =>
      obtain ⟨said', hq, hl, h'⟩ := narrated_act ha hm hn hlength h
      exact ⟨said', none, hq, hl, .running hst (ha.eq_of_waiting ▸ h')⟩
  | expire ha =>
    cases hs with
    | running hst h =>
      obtain ⟨said', hq, hl, h'⟩ := narrated_act ha hm hn hlength h
      exact ⟨said', none, hq, hl, .expiring hst (ha.eq_of_waiting ▸ h')⟩
  | linger ha =>
    cases hs with
    | expiring hst h =>
      obtain ⟨said', hq, hl, h'⟩ := narrated_act ha hm hn hlength h
      exact ⟨said', none, hq, hl, .expiring hst (ha.eq_of_waiting ▸ h')⟩
  | giveUp ha =>
    cases hs with
    | expiring hst h =>
      obtain ⟨said', hq, hl, h'⟩ := narrated_act ha hm hn hlength h
      exact ⟨said', none, hq, hl, .closing (.late ((ha.eq_of_waiting ▸ h').pending hst))⟩
  | @close m x =>
    cases hs with
    | closing h =>
      rcases closingNotice_eq b m x with ⟨hx, hk⟩ | ⟨n, hx, hk, hname, hattempt⟩
      · rw [hx]
        exact ⟨said, none, hn, hlength, hk ▸ .finished h⟩
      · rw [hx]
        refine ⟨said, some n.kind, ?_, hlength.trans (begun_publish env n r).symm, hk ▸ .finished h⟩
        refine hn.publish env (k := said.length) hname ?_ (by simp)
        rw [hattempt, hlength]
        exact congrArg some hm
  | rest => exact ⟨said, closing, hn, hlength, hs⟩

theorem narrated_run {drift : State ε → ω → ω → Prop} {now : Nat} {w : ω}
    (run : Run (State.step b.recorded env.recorded) (Recording.drift drift) (.begin b now) (w, [])
      s r) :
    ∃ said closing, Narrated b r.2 said closing ∧ said.length = begun r.2 ∧
      Reaches s.phase said closing := by
  induction run with
  | refl => exact ⟨[], none, ⟨rfl, nofun⟩, rfl, .running rfl (.between trivial nofun)⟩
  | step run ih =>
    obtain ⟨said, closing, hn, hl, hs⟩ := ih
    exact narrated_turn (turn_step b env _ _) (counts_run run) hn hl hs
  | drift _ hu ih => exact hu.2 ▸ ih

end Turn

/-! ## Attempts that connect -/

/-- Every attempt that was begun has connected. -/
def Connected (l : Record ω ε) : Prop := connecting l = (false, begun l)

/-- Every attempt but the last has connected, and the last one is about to. -/
def Connecting (l : Record ω ε) : Prop := ∃ n, connecting l = (true, n) ∧ begun l = n + 1

section Connecting

variable {b : Brief ω ε} {env : Surroundings ω ε} {st : Stage Unit ε} {m : Memory}
  {r q : Recording ω (Deed ε)}

theorem Connected.concat {l : Record ω ε} (h : Connected l) {x : Entry ω (Deed ε)}
    (hx : x.deed.isBegin = false) : Connected (l ++ [x]) := by
  rw [Connected, connecting_concat, begun_concat, hx, h]
  cases hd : x.deed with
  | began => rw [hd] at hx; cases hx
  | polled c reply | published n | drew d => rfl

theorem Connected.publish (h : Connected r.2) (env : Surroundings ω ε) (n : Notice) :
    Connected (env.recorded.publish n r).2 := h.concat (x := ⟨.published n, _, _⟩) rfl

theorem Connecting.start (h : Connected r.2) (env : Surroundings ω ε) :
    Connecting (env.recorded.start r).2 := by
  refine ⟨begun r.2, ?_, begun_start env r⟩
  show connecting (r.2 ++ [_]) = _
  rw [connecting_concat, h]
  rfl

theorem Connecting.publish (h : Connecting r.2) (env : Surroundings ω ε) (n : Notice) :
    Connecting (env.recorded.publish n r).2 := by
  obtain ⟨k, hk, hb⟩ := h
  refine ⟨k, ?_, (begun_publish env n r).trans hb⟩
  show connecting (r.2 ++ [_]) = _
  rw [connecting_concat, hk]
  rfl

/-- The first poll of an attempt connects. -/
theorem connected_polled {reply : Reply ε} (h : Connected r.2 ∨ Connecting r.2)
    (hp : Polled env m r reply q) : Connected q.2 := by
  rw [hp.noted]
  rcases h with h | ⟨n, hn, hb⟩
  · exact h.concat rfl
  · show connecting (r.2 ++ [_]) = (false, begun (r.2 ++ [_]))
    rw [connecting_concat, hn, begun_concat, hb]
    rfl

/-- Only an attempt that has just begun has still to connect, and the run does not wait then. -/
theorem connected_act {p : Progress (Stage Unit ε) (Memory × Recording ω (Deed ε))}
    (ha : Act b env st m r p) (h : Connected r.2 ∨ st = .attempting ∧ Connecting r.2) :
    Connected p.world.2.2 ∨ (p.state = .attempting ∧ p.moved = true) ∧ Connecting p.world.2.2 := by
  -- apart from an attempt in flight all have connected
  have idle (hst : st ≠ .attempting) : Connected r.2 := h.resolve_right fun h => hst h.1
  cases ha with
  | stop hs => exact .inl (idle (by rintro rfl; exact hs))
  | begin => exact .inr ⟨⟨rfl, rfl⟩, ((Connecting.start (idle nofun) env)).publish env _⟩
  | pend hp | hush hp => exact .inl (connected_polled (h.imp_right And.right) hp)
  | connect hp | fail hp => exact .inl ((connected_polled (h.imp_right And.right) hp).publish env _)
  | @announce _ _ _ _ q _ _ _ _ _ u hp =>
    have hq := connected_polled (h.imp_right And.right) hp
    exact .inl (Connected.publish (r := q.goOn u) hq env _)
  | @draw _ _ _ d u => exact .inl ((idle nofun).concat (x := ⟨.drew d, u, _⟩) rfl)
  | wake | sleep | rest => exact .inl (idle nofun)

/-- Where a campaign may have to connect. -/
def Phase.Attempts : Phase ε → Prop
  | .running st | .expiring st => st = .attempting
  | .closing _ | .finished _ => False

theorem connected_turn {s : State ε} {p : Progress (State ε) (Recording ω (Deed ε))}
    (ht : Turn b env s r p) (h : Connected r.2 ∨ s.phase.Attempts ∧ Connecting r.2) :
    Connected p.world.2 ∨ p.state.phase.Attempts ∧ Connecting p.world.2 := by
  -- a run that waits has connected
  have waits {st st' : Stage Unit ε} {m m' : Memory} {q : Recording ω (Deed ε)}
      (ha : Act b env st m r (.waiting st' (m', q)))
      (h : Connected r.2 ∨ st = .attempting ∧ Connecting r.2) : Connected q.2 :=
    (connected_act ha h).resolve_right fun h => by cases h.1.2
  cases ht with
  | run ha =>
    refine (connected_act ha h).imp_right ?_
    rintro ⟨⟨rfl, -⟩, hq⟩
    exact ⟨rfl, hq⟩
  | last ha =>
    refine (connected_act ha h).imp_right ?_
    rintro ⟨⟨rfl, -⟩, hq⟩
    exact ⟨rfl, hq⟩
  | stay ha | linger ha => exact .inl (waits ha h)
  | expire ha | giveUp ha =>
    have hq := waits ha h
    exact .inl hq
  | @close m x =>
    have hr : Connected r.2 := h.resolve_right fun h => h.1
    cases hn : State.closingNotice b m x with
    | none => exact .inl hr
    | some n => exact .inl (hr.publish env n)
  | rest => exact h

theorem connected_run {drift : State ε → ω → ω → Prop} {now : Nat} {w : ω} {s : State ε}
    (run : Run (State.step b.recorded env.recorded) (Recording.drift drift) (.begin b now) (w, [])
      s r) : Connected r.2 ∨ s.phase.Attempts ∧ Connecting r.2 := by
  induction run with
  | refl => exact .inl rfl
  | step _ ih => exact connected_turn (turn_step b env _ _) ih
  | drift _ hu ih => exact hu.2 ▸ ih

end Connecting

/-! ## Streams -/

/-- What may be said of the attempts of a campaign, and at last of the campaign itself. -/
structure Sensible (said : List (Option EventKind)) (closing : Option EventKind) : Prop where
  outcomes : ∀ o ∈ said, ∀ k ∈ o, k = .connected ∨ k = .backoffScheduled ∨ k = .connectFailed
  /-- Only in the last block an attempt may have ended the campaign. -/
  pending : AllPending said.dropLast
  own : ∀ k ∈ closing, k = .canceled ∨ k = .deadlineExceeded
  connected : some .connected ∈ said → closing = none

/-- A stream of notices under the name of a connector: for each attempt a block, numbered from 1,
and then at most one notice of the campaign itself, numbered like the last attempt. -/
structure Stream (name : String) (ns : List Notice) (said : List (Option EventKind))
    (closing : Option EventKind) : Prop where
  sensible : Sensible said closing
  marks : ns.map (fun n => (n.kind, n.attempt.map UInt32.toNat)) =
    (blocks said ++ closing.toList.map (·, said.length)).map fun p => (p.1, some p.2)
  named : ∀ n ∈ ns, n.connector = some name
  last : ∀ front n rest, ns = front ++ n :: rest → n.kind = .connected → rest = []

theorem sensible_of_allPending {said : List (Option EventKind)} (h : AllPending said)
    {closing : Option EventKind} (hk : ∀ k ∈ closing, k = .canceled ∨ k = .deadlineExceeded) :
    Sensible said closing where
  outcomes o ho k hk := by
    rcases h o ho with rfl | rfl
    · cases hk
    · exact .inr (.inl (Option.some.inj hk).symm)
  pending o ho := h o (List.dropLast_subset _ ho)
  own := hk
  connected hc := by rcases h _ hc with hc | hc <;> cases hc

theorem sensible_concat {said : List (Option EventKind)} (h : AllPending said) {k : EventKind}
    (hk : k = .connected ∨ k = .connectFailed) {closing : Option EventKind}
    (hclosing : ∀ k ∈ closing, k = .canceled ∨ k = .deadlineExceeded)
    (hc : k = .connected → closing = none) : Sensible (said ++ [some k]) closing where
  outcomes o ho j hj := by
    rcases List.mem_append.mp ho with ho | ho
    · exact (sensible_of_allPending h hclosing).outcomes o ho j hj
    · rw [List.mem_singleton.mp ho] at hj
      rw [← Option.some.inj hj]
      exact hk.imp_right .inr
  pending := by rwa [List.dropLast_concat]
  own := hclosing
  connected hm := by
    rcases List.mem_append.mp hm with hm | hm
    · exact (sensible_of_allPending h hclosing).connected hm
    · exact hc (Option.some.inj (List.mem_singleton.mp hm)).symm

theorem Ends.sensible {x : Except (CampaignFailure ε) Unit} {said : List (Option EventKind)}
    (h : Ends x said) : Sensible said none ∧ Sensible said (closingKind x) := by
  cases h with
  | connected h =>
    have hs : Sensible _ none := sensible_concat h (.inl rfl) nofun fun _ => rfl
    exact ⟨hs, hs⟩
  | failed h =>
    have hs : Sensible _ none := sensible_concat h (.inr rfl) nofun nofun
    exact ⟨hs, hs⟩
  | canceled h =>
    exact ⟨sensible_of_allPending h nofun, sensible_of_allPending h (by simp [closingKind])⟩
  | late h =>
    exact ⟨sensible_of_allPending h nofun, sensible_of_allPending h (by simp [closingKind])⟩
  | lateFailure h =>
    exact ⟨sensible_concat h (.inr rfl) nofun nofun,
      sensible_concat h (.inr rfl) (by simp [closingKind]) nofun⟩

theorem Reaches.sensible {ph : Phase ε} {said : List (Option EventKind)}
    {closing : Option EventKind} (h : Reaches ph said closing) : Sensible said closing := by
  cases h with
  | running hst h | expiring hst h => exact sensible_of_allPending (h.pending hst) nofun
  | closing h => exact h.sensible.1
  | finished h => exact h.sensible.2

/-- Where connecting is said of an attempt, that is the last one. -/
theorem Sensible.eq_concat {said : List (Option EventKind)} {closing : Option EventKind}
    (h : Sensible said closing) (hc : some .connected ∈ said) :
    ∃ front, said = front ++ [some .connected] ∧ some .connected ∉ front := by
  rcases List.eq_nil_or_concat said with rfl | ⟨front, o, rfl⟩
  · cases hc
  · rw [List.concat_eq_append] at h hc ⊢
    have hfront : some .connected ∉ front := by
      intro hm
      have hp := h.pending
      rw [List.dropLast_concat] at hp
      rcases hp _ hm with hm | hm <;> cases hm
    have ho := (List.mem_append.mp hc).resolve_left hfront
    exact ⟨front, by rw [List.mem_singleton.mp ho], hfront⟩

theorem connected_notMem_blocks {said : List (Option EventKind)} (h : some .connected ∉ said) :
    .connected ∉ (blocks said).map (·.1) := by
  intro hk
  obtain ⟨p, hp, hk⟩ := List.mem_map.mp hk
  rcases kind_of_mem_blocks hp with hs | hs
  · rw [hs] at hk
    cases hk
  · exact h (hk ▸ hs)

/-- What is among the kinds of notices only as the last one is followed by nothing. -/
theorem eq_nil_of_kinds {ns front rest : List Notice} {n : Notice} {ks : List EventKind}
    (last : Option EventKind) (hns : ns.map (·.kind) = ks ++ last.toList) (hk : n.kind ∉ ks)
    (heq : ns = front ++ n :: rest) : rest = [] := by
  rcases List.eq_nil_or_concat rest with rfl | ⟨rest, z, rfl⟩
  · rfl
  · rw [heq, List.concat_eq_append, List.map_append, List.map_cons] at hns
    refine absurd ?_ hk
    cases last with
    | none =>
      rw [Option.toList_none, List.append_nil] at hns
      rw [← hns]
      simp
    | some c =>
      rw [List.map_append, ← List.cons_append, ← List.append_assoc] at hns
      rw [← (List.append_inj' hns rfl).1]
      simp

section Narrated

variable {b : Brief ω ε} {l : Record ω ε} {said : List (Option EventKind)}
  {closing : Option EventKind}

theorem Narrated.kinds (h : Narrated b l said closing) :
    (notices l).map (·.kind) = (blocks said).map (·.1) ++ closing.toList := by
  have hmarks := congrArg (List.map (·.1)) h.marks
  simpa [mark, numbered, Function.comp_def] using hmarks

/-- Below `2 ^ 32` attempts their numbers are those of the notices. -/
theorem Narrated.marks_toNat (h : Narrated b l said closing) (hfew : said.length < UInt32.size) :
    (notices l).map (fun n => (n.kind, n.attempt.map UInt32.toNat)) =
      (blocks said ++ closing.toList.map (·, said.length)).map fun p => (p.1, some p.2) := by
  have hmarks := congrArg (List.map fun p => (p.1, p.2.map UInt32.toNat)) h.marks
  rw [List.map_map, List.map_map] at hmarks
  refine hmarks.trans (List.map_congr_left fun p hp => ?_)
  have hle : p.2 ≤ said.length := by
    rcases List.mem_append.mp hp with hp | hp
    · exact le_length_of_mem_blocks hp
    · obtain ⟨k, -, rfl⟩ := List.mem_map.mp hp
      exact Nat.le_refl _
  have hnumber : (UInt32.ofNat p.2).toNat = p.2 :=
    UInt32.toNat_ofNat_of_lt' (Nat.lt_of_le_of_lt hle hfew)
  simp [numbered, hnumber]

theorem Narrated.stream (h : Narrated b l said closing) (hs : Sensible said closing)
    (hfew : said.length < UInt32.size) : Stream b.connector.name (notices l) said closing := by
  refine ⟨hs, h.marks_toNat hfew, h.named, fun front n rest heq hn => ?_⟩
  have hkinds := h.kinds
  by_cases hc : some .connected ∈ said
  · obtain ⟨before, rfl, hbefore⟩ := hs.eq_concat hc
    have hquiet : some .connected ∉ before ++ [none] := by simpa using hbefore
    rw [hs.connected hc, blocks_concat_some, List.map_append, Option.toList_none,
      List.append_nil] at hkinds
    exact eq_nil_of_kinds (some .connected) hkinds (hn ▸ connected_notMem_blocks hquiet) heq
  · -- then no notice says so
    refine eq_nil_of_kinds none (hkinds.trans (List.append_nil _).symm) ?_ heq
    rw [hn, List.mem_append, not_or]
    refine ⟨connected_notMem_blocks hc, fun hk => ?_⟩
    rcases hs.own _ (Option.mem_toList.mp hk) with hk | hk <;> cases hk

end Narrated

/-- Whatever was recorded before, what a campaign of fewer than `2 ^ 32` attempts has published at
any moment is a stream that begins with number 1 and has a block for each attempt; and when the
campaign has returned, each of these attempts has connected. -/
theorem stream_run {b : Brief ω ε} {env : Surroundings ω ε} {drift : State ε → ω → ω → Prop}
    {now : Nat} {w v : ω} {s : State ε} {l₀ l : Record ω ε}
    (run : Run (State.step b.recorded env.recorded) (Recording.drift drift) (.begin b now) (w, l₀)
      s (v, l₀ ++ l)) (hfew : begun l < UInt32.size) :
    ∃ said closing, Stream b.connector.name (notices l) said closing ∧ said.length = begun l ∧
      (s.result?.isSome → connects l = said.length) := by
  obtain ⟨l', hl, run⟩ := exists_run_after run
  obtain rfl := List.append_cancel_left hl
  obtain ⟨said, closing, hn, hlength, hs⟩ := narrated_run run
  refine ⟨said, closing, hn.stream hs.sensible (hlength ▸ hfew), hlength, fun hx => ?_⟩
  have hconnected : Connected l := by
    refine (connected_run run).resolve_right fun h => ?_
    obtain ⟨m, ph, limit⟩ := s
    cases ph with
    | running st | expiring st => cases hx
    | closing x | finished x => exact h.1
  rw [connects, hconnected, hlength]

/-- The course of a campaign of `hesitant`, recorded after what has been recorded before. -/
def hesitantCourse (now : Nat) (l : List (Happening (Rehearsal.World Unit String)))
    (r : Recording (Rehearsal.World Unit String) (Deed String)) :=
  play (State.step hesitant.recorded (Rehearsal.surroundings 0).recorded) (l.map .beside)
    (.begin hesitant now, r)

def hesitantFirst := hesitantCourse 0 hesitantly (hesitantWorld, [])

/-- The connector is not refused again, so that this campaign does not pause. -/
def hesitantSecond := hesitantCourse hesitantFirst.2.1.clock (.replicate 5 .step) hesitantFirst.2

/-- The first campaign connects twice, and the stream of the second begins with number 1 again. -/
theorem stream_run_hesitant :
    hesitantFirst.1.result? = some (.ok ()) ∧ connects hesitantFirst.2.2 = 2 ∧
    hesitantSecond.1.result? = some (.ok ()) ∧
    ∃ l, hesitantSecond.2.2 = hesitantFirst.2.2 ++ l ∧ begun l = 1 ∧
      ∃ said closing, Stream "hesitant" (notices l) said closing ∧ said.length = 1 ∧
        connects l = 1 := by
  have run : Run (State.step hesitant.recorded (Rehearsal.surroundings 0).recorded) _ _
      (hesitantFirst.2.1, hesitantFirst.2.2) hesitantSecond.1
      (hesitantSecond.2.1, hesitantSecond.2.2) := Recording.run_play _ _ _
  obtain ⟨l, hl, -⟩ := exists_run_after run
  have hbegun : begun l = 1 := by
    rw [← @List.drop_left _ hesitantFirst.2.2 l, ← hl]
    rfl
  have hresult : hesitantSecond.1.result? = some (.ok ()) := rfl
  rw [hl] at run
  obtain ⟨said, closing, hstream, hlength, hconnects⟩ := stream_run run (hbegun ▸ by decide)
  refine ⟨rfl, rfl, hresult, l, hl, hbegun, said, closing, hstream, hlength.trans hbegun, ?_⟩
  rw [hconnects (by rw [hresult]; rfl), hlength, hbegun]

end Reattempt.Campaign
