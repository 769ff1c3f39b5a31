import Reattempt.Proofs.Backoff.Sequence
import Reattempt.Proofs.Campaign.Sharing
import Mathlib.Logic.Function.Basic

/-!
# Campaigns that share a generator

Any number of campaigns draw from one generator. They are carried on one at a time, each
until it waits, in any order; while all of them wait, anything may happen to the rest of
the world. Between the announcement of a delay and its draw a campaign does not wait, so
that no other comes between: the delays drawn are those of the generator in order, and each
campaign draws what it has announced.
-/

namespace Reattempt

theorem Backoff.Source.draws_append {κ : Type} (src : Source κ) (rolls rolls' : List Rolls)
    (k : κ) : src.draws (rolls ++ rolls') k =
      ((src.draws rolls k).1 ++ (src.draws rolls' (src.draws rolls k).2).1,
        (src.draws rolls' (src.draws rolls k).2).2) := by
  induction rolls generalizing k with
  | nil => rfl
  | cons roll rolls ih =>
    rw [List.cons_append, draws_cons, draws_cons, ih]
    rfl

theorem Backoff.Source.length_draws {κ : Type} (src : Source κ) (rolls : List Rolls) (k : κ) :
    (src.draws rolls k).1.length = rolls.length := by
  induction rolls generalizing k with
  | nil => rfl
  | cons roll rolls ih => rw [draws_cons, List.length_cons, ih, List.length_cons]

/-- The sequence depends on no rolls. -/
theorem Backoff.Fibonacci.draws_eq_of_length {rolls rolls' : List Rolls}
    (h : rolls.length = rolls'.length) (g : Fibonacci) :
    source.draws rolls g = source.draws rolls' g := by
  induction rolls generalizing rolls' g with
  | nil =>
    obtain rfl := List.length_eq_zero_iff.mp h.symm
    rfl
  | cons roll rolls ih =>
    obtain ⟨roll', rolls', rfl⟩ := List.exists_cons_of_length_eq_add_one h.symm
    have hnext : source.next roll g = source.next roll' g := rfl
    rw [Source.draws_cons, Source.draws_cons, hnext, ih (Nat.succ.inj h)]

namespace Campaign

open Backoff (Source Fibonacci Rolls)

variable {ι κ υ ε : Type}

/-- An entry in the record of all: whose it is, and whether that one's deadline had passed. -/
structure Remark (ι κ υ ε : Type) where
  who : ι
  expired : Bool
  entry : Entry (κ × υ) (Deed ε)

/-- Campaigns in one world. -/
structure Crowd (ι κ υ ε : Type) where
  campaigns : ι → State ε
  /-- Who has moved and not waited since. -/
  active : Option ι
  world : κ × υ
  record : List (Remark ι κ υ ε)

/-- What may happen next: a campaign makes a step, or something else changes the world. -/
inductive Incident (ι υ : Type) where
  | turn (i : ι)
  | change (f : υ → υ)

namespace Remark

/-- The end of an attempt that has succeeded, has failed for good, or has left its campaign
cancelled. -/
def Concludes (ms : ι → Member υ ε) (x : Remark ι κ υ ε) : Prop :=
  (ms x.who).Concludes x.expired x.entry

def isDraw (x : Remark ι κ υ ε) : Bool := x.entry.deed.isDraw

def isAnnouncement (x : Remark ι κ υ ε) : Bool := x.entry.deed.isAnnouncement

/-- The campaign draws the delay. -/
def Draws (i : ι) (d : Duration) (x : Remark ι κ υ ε) : Prop := x.who = i ∧ x.entry.deed = .drew d

end Remark

/-- The delays drawn by all, in order. -/
def allDelays (l : List (Remark ι κ υ ε)) : List Duration := delays (l.map (·.entry))

namespace Crowd

/-- The campaigns before their beginning. -/
def gather (ms : ι → Member υ ε) (src : Source κ) (w : κ × υ) : Crowd ι κ υ ε :=
  ⟨fun i => .begin ((ms i).brief src) (ms i).start, none, w, []⟩

/-- A campaign makes a step. -/
def turn [DecidableEq ι] (c : Crowd ι κ υ ε) (ms : ι → Member υ ε) (src : Source κ) (i : ι) :
    Crowd ι κ υ ε :=
  let s := c.campaigns i
  let p := State.step ((ms i).brief src).recorded (ms i).surroundings.beyond.recorded s (c.world, [])
  { campaigns := Function.update c.campaigns i p.state
    active := if p.moved then some i else none
    world := p.world.1
    record := c.record ++ p.world.2.map (.mk i s.memory.expired) }

/-- Until a campaign that has moved waits, nothing else happens. -/
def occur [DecidableEq ι] (c : Crowd ι κ υ ε) (ms : ι → Member υ ε) (src : Source κ) :
    Incident ι υ → Crowd ι κ υ ε
  | .turn i => if c.active = none ∨ c.active = some i then c.turn ms src i else c
  | .change f => if c.active = none then { c with world := (c.world.1, f c.world.2) } else c

/-- The course of all under a schedule. -/
def play [DecidableEq ι] (c : Crowd ι κ υ ε) (ms : ι → Member υ ε) (src : Source κ)
    (l : List (Incident ι υ)) : Crowd ι κ υ ε := l.foldl (fun c h => c.occur ms src h) c

variable {c : Crowd ι κ υ ε} {ms : ι → Member υ ε} {src : Source κ} {i j : ι}

/-- A campaign of the crowd, with the world of all. -/
def glance (c : Crowd ι κ υ ε) (i : ι) : Glance κ υ ε := (c.campaigns i).glance c.world

/-- What the turn of a campaign does to the crowd. -/
structure Turned (c : Crowd ι κ υ ε) (ms : ι → Member υ ε) (src : Source κ) (i : ι)
    (moved : Bool) (l : Record (κ × υ) ε) (c' : Crowd ι κ υ ε) : Prop where
  effect : Effect (ms i) src (c.glance i) moved (c'.glance i) l
  others : ∀ j, j ≠ i → c'.campaigns j = c.campaigns j
  active : c'.active = if moved then some i else none
  record : c'.record = c.record ++ l.map (.mk i (c.glance i).memory.expired)

theorem turned_turn [DecidableEq ι] (hms : ∀ i, (ms i).Discreet) (hsrc : src.Foreseen)
    (c : Crowd ι κ υ ε) (i : ι) : ∃ moved l, c.Turned ms src i moved l (c.turn ms src i) := by
  refine ⟨_, _, ?_, fun j hj => Function.update_of_ne hj .., rfl, rfl⟩
  have h := effect_turn (hms i) hsrc
    (turn_step ((ms i).brief src) (ms i).surroundings.beyond (c.campaigns i) (c.world, []))
  have hself : (c.turn ms src i).glance i = State.glance _ _ :=
    congrArg (State.glance · _) (Function.update_self ..)
  rw [hself]
  exact h

/-- A campaign will draw a delay with its next turn. -/
structure Owes (c : Crowd ι κ υ ε) (ms : ι → Member υ ε) (src : Source κ) (i : ι)
    (d : Duration) : Prop where
  stage : (c.glance i).stage = .refused
  live : (ms i).isCancelled (c.glance i).memory.expired c.world.2 = false
  shown : (src.peek c.world.1).1 = d

/-- What comes of announcing a delay: the campaign that has announced it draws it next of all,
or will with its next turn. -/
def Followed (c : Crowd ι κ υ ε) (ms : ι → Member υ ε) (src : Source κ) (i : ι) (d : Duration)
    (l : List (Remark ι κ υ ε)) : Prop :=
  (∃ y l', l = y :: l' ∧ y.Draws i d) ∨ l = [] ∧ c.Owes ms src i d

/-- What holds of all campaigns and their record at any moment, `k` being the generator at the
beginning. -/
structure Sound (ms : ι → Member υ ε) (src : Source κ) (k : κ) (c : Crowd ι κ υ ε) : Prop where
  drawn : ∃ rolls, src.draws rolls k = (allDelays c.record, c.world.1)
  held : ∀ i, (c.glance i).stage = .refused → c.active = some i
  announced : ∀ l₁ (x : Remark ι κ υ ε) l₂, c.record = l₁ ++ x :: l₂ → x.isAnnouncement = true →
    ∃ d n, x.entry.deed = .published n ∧ Foretells d n ∧ c.Followed ms src x.who d l₂
  concluded : ∀ l₁ (x : Remark ι κ υ ε) l₂, c.record = l₁ ++ x :: l₂ → x.Concludes ms →
    (ms x.who).Ceases (c.glance x.who) ∧ ∀ y ∈ l₂, y.who = x.who → y.isDraw = false

/-- An element of what was there before, or of what has come. -/
theorem eq_append_cons {α : Type} {r l l₁ l₂ : List α} {x : α} (h : r ++ l = l₁ ++ x :: l₂) :
    (∃ l', r = l₁ ++ x :: l' ∧ l₂ = l' ++ l) ∨ ∃ l', l₁ = r ++ l' ∧ l = l' ++ x :: l₂ := by
  rcases List.append_eq_append_iff.mp h with ⟨l', hl, hr⟩ | ⟨l', hr, hl⟩
  · exact .inr ⟨l', hl, hr⟩
  · rcases List.cons_eq_append_iff.mp hl with ⟨rfl, rfl⟩ | ⟨l'', rfl, rfl⟩
    · exact .inr ⟨[], by simpa using hr.symm, rfl⟩
    · exact .inl ⟨l'', hr, rfl⟩

/-- Who has been refused goes on at once, so that nobody else makes a turn. -/
theorem eq_of_refused (hheld : ∀ j, (c.glance j).stage = .refused → c.active = some j)
    (hi : c.active = none ∨ c.active = some i) (hj : (c.glance j).stage = .refused) : j = i := by
  rcases hi with hi | hi <;> rw [hheld j hj] at hi <;> cases hi
  rfl

namespace Turned

variable {k : κ} {c' : Crowd ι κ υ ε} {moved : Bool} {l : Record (κ × υ) ε}

theorem drawn (ht : c.Turned ms src i moved l c') (hsrc : src.Foreseen)
    (h : ∃ rolls, src.draws rolls k = (allDelays c.record, c.world.1)) :
    ∃ rolls, src.draws rolls k = (allDelays c'.record, c'.world.1) := by
  obtain ⟨rolls, hrolls⟩ := h
  obtain ⟨rolls', hrolls'⟩ := ht.effect.draws_eq hsrc
  have hworld : src.draws rolls' c.world.1 = (delays l, c'.world.1) := hrolls'
  refine ⟨rolls ++ rolls', ?_⟩
  rw [Source.draws_append, hrolls, hworld, ht.record]
  simp [allDelays, delays, Function.comp_def]

theorem held (ht : c.Turned ms src i moved l c') (hi : c.active = none ∨ c.active = some i)
    (h : ∀ j, (c.glance j).stage = .refused → c.active = some j) (j : ι)
    (hj : (c'.glance j).stage = .refused) : c'.active = some j := by
  by_cases hji : j = i
  · subst hji
    rw [ht.active, ht.effect.moved_of_refused hj, if_pos rfl]
  · have hstage : (c.glance j).stage = .refused := by
      rw [← hj]
      exact congrArg (·.phase.stage) (ht.others j hji).symm
    exact absurd (eq_of_refused h hi hstage) hji

/-- Who owes a draw draws. -/
theorem draws_of_owes (ht : c.Turned ms src i moved l c') {d : Duration}
    (h : c.Owes ms src i d) : ∃ y, c'.record = c.record ++ [y] ∧ y.Draws i d := by
  have hdrawn := ht.effect.drawn_of_refused h.stage h.live
  obtain ⟨x, rfl, hx⟩ := hdrawn.entries
  exact ⟨_, ht.record, rfl, hx.trans (congrArg Deed.drew h.shown)⟩

theorem followed (ht : c.Turned ms src i moved l c') (hi : c.active = none ∨ c.active = some i)
    (hheld : ∀ j, (c.glance j).stage = .refused → c.active = some j) {d : Duration}
    {l₂ : List (Remark ι κ υ ε)} (h : c.Followed ms src j d l₂) {new : List (Remark ι κ υ ε)}
    (hnew : c'.record = c.record ++ new) : c'.Followed ms src j d (l₂ ++ new) := by
  rcases h with ⟨y, l', rfl, hy⟩ | ⟨rfl, howes⟩
  · exact .inl ⟨y, l' ++ new, rfl, hy⟩
  · obtain rfl := eq_of_refused hheld hi howes.stage
    obtain ⟨y, hrecord, hy⟩ := ht.draws_of_owes howes
    obtain rfl := List.append_cancel_left (hnew.symm.trans hrecord)
    exact .inl ⟨y, [], rfl, hy⟩

theorem announced (ht : c.Turned ms src i moved l c') (hi : c.active = none ∨ c.active = some i)
    (h : Sound ms src k c) {l₁ l₂ : List (Remark ι κ υ ε)} {x : Remark ι κ υ ε}
    (hx : c'.record = l₁ ++ x :: l₂) (hann : x.isAnnouncement = true) :
    ∃ d n, x.entry.deed = .published n ∧ Foretells d n ∧ c'.Followed ms src x.who d l₂ := by
  rcases eq_append_cons (ht.record.symm.trans hx) with ⟨l', hold, rfl⟩ | ⟨l', -, hnew⟩
  · obtain ⟨d, n, hdeed, hn, hfollowed⟩ := h.announced _ _ _ hold hann
    exact ⟨d, n, hdeed, hn, ht.followed hi h.held hfollowed ht.record⟩
  · have hmem : x ∈ l.map (.mk i (c.glance i).memory.expired) := by simp [hnew]
    obtain ⟨u, hu, rfl⟩ := List.mem_map.mp hmem
    have hannounced := ht.effect.announced_of_isAnnouncement hu hann
    obtain ⟨y, z, n, rfl, -, hy, -, hdeed, hn⟩ := hannounced.entries
    have hlive := hannounced.live
    -- the announcement is the second of two entries
    rcases l' with _ | ⟨a, _ | ⟨b, l'⟩⟩
    · obtain ⟨hyu, -⟩ := List.cons.inj hnew
      obtain rfl := (Remark.mk.inj hyu).2.2
      rw [Remark.isAnnouncement, hy] at hann
      cases hann
    · obtain ⟨-, htail⟩ := List.cons.inj hnew
      obtain ⟨hzu, hnil⟩ := List.cons.inj htail
      obtain rfl := (Remark.mk.inj hzu).2.2
      refine ⟨_, n, hdeed, hn, .inr ⟨hnil.symm, hannounced.stage, hannounced.live, ?_⟩⟩
      exact congrArg (fun k => (src.peek k).1) hannounced.generator
    · have hlength := congrArg List.length hnew
      simp at hlength

theorem not_draw_of_quiet {m : Member υ ε} {a b : Glance κ υ ε} {expired : Bool}
    (h : Quiet m a moved b l) : ∀ y ∈ l.map (Remark.mk i expired), y.isDraw = false := by
  intro y hy
  obtain ⟨z, hz, rfl⟩ := List.mem_map.mp hy
  exact (h.entries z hz).1

theorem concluded (ht : c.Turned ms src i moved l c') (hi : c.active = none ∨ c.active = some i)
    (h : Sound ms src k c) {l₁ l₂ : List (Remark ι κ υ ε)} {x : Remark ι κ υ ε}
    (hx : c'.record = l₁ ++ x :: l₂) (hends : x.Concludes ms) :
    (ms x.who).Ceases (c'.glance x.who) ∧ ∀ y ∈ l₂, y.who = x.who → y.isDraw = false := by
  rcases eq_append_cons (ht.record.symm.trans hx) with ⟨l', hold, rfl⟩ | ⟨l', -, hnew⟩
  · obtain ⟨hceases, hl'⟩ := h.concluded _ _ _ hold hends
    by_cases hxi : x.who = i
    · rw [hxi] at hceases hl' ⊢
      have hquiet := ht.effect.quiet_of_ceases hceases
      refine ⟨.inl (hquiet.ceases hceases), fun y hy hwho => ?_⟩
      rcases List.mem_append.mp hy with hy | hy
      · exact hl' y hy hwho
      · exact not_draw_of_quiet hquiet y hy
    · have hsame := ht.others x.who hxi
      refine ⟨?_, fun y hy hwho => ?_⟩
      · have hstage : (c'.glance x.who).stage = (c.glance x.who).stage :=
          congrArg (·.phase.stage) hsame
        rcases hceases with hended | ⟨hrefused, -⟩
        · exact .inl (hstage ▸ hended)
        · exact absurd (eq_of_refused h.held hi hrefused) hxi
      · rcases List.mem_append.mp hy with hy | hy
        · exact hl' y hy hwho
        · obtain ⟨z, -, rfl⟩ := List.mem_map.mp hy
          exact absurd hwho.symm hxi
  · have hmem : x ∈ l.map (.mk i (c.glance i).memory.expired) := by simp [hnew]
    obtain ⟨z, hz, rfl⟩ := List.mem_map.mp hmem
    have hquiet := ht.effect.quiet_of_concludes hz hends
    refine ⟨(hquiet.entries z hz).2.2 hends, fun y hy _ => ?_⟩
    exact not_draw_of_quiet hquiet y (by rw [hnew]; exact List.mem_append_right _ (.tail _ hy))

theorem sound (ht : c.Turned ms src i moved l c') (hsrc : src.Foreseen)
    (hi : c.active = none ∨ c.active = some i) (h : Sound ms src k c) : Sound ms src k c' where
  drawn := ht.drawn hsrc h.drawn
  held := ht.held hi h.held
  announced _ _ _ := ht.announced hi h
  concluded _ _ _ := ht.concluded hi h

end Turned

section Play

variable {k : κ}

/-- While all campaigns wait, the rest of the world may change. -/
theorem Sound.change (h : Sound ms src k c) (hidle : c.active = none) (v : υ) :
    Sound ms src k { c with world := (c.world.1, v) } := by
  have hnone (j : ι) : (c.glance j).stage ≠ .refused := by
    intro hj
    rw [h.held j hj] at hidle
    cases hidle
  refine ⟨h.drawn, h.held, fun l₁ x l₂ hx hann => ?_, fun l₁ x l₂ hx hends => ?_⟩
  · obtain ⟨d, n, hdeed, hn, hdraws | ⟨-, howes⟩⟩ := h.announced l₁ x l₂ hx hann
    · exact ⟨d, n, hdeed, hn, .inl hdraws⟩
    · exact absurd howes.stage (hnone x.who)
  · obtain ⟨hended | ⟨hrefused, -⟩, hl₂⟩ := h.concluded l₁ x l₂ hx hends
    · exact ⟨.inl hended, hl₂⟩
    · exact absurd hrefused (hnone x.who)

theorem Sound.occur [DecidableEq ι] (hms : ∀ i, (ms i).Discreet) (hsrc : src.Foreseen)
    (h : Sound ms src k c) (x : Incident ι υ) : Sound ms src k (c.occur ms src x) := by
  cases x with
  | turn i =>
    rw [Crowd.occur]
    split
    · rename_i hi
      obtain ⟨moved, l, ht⟩ := turned_turn hms hsrc c i
      exact ht.sound hsrc hi h
    · exact h
  | change f =>
    rw [Crowd.occur]
    split
    · rename_i hidle
      exact h.change hidle (f c.world.2)
    · exact h

theorem sound_gather (ms : ι → Member υ ε) (src : Source κ) (w : κ × υ) :
    Sound ms src w.1 (gather ms src w) where
  drawn := ⟨[], rfl⟩
  held := nofun
  announced := by simp [gather]
  concluded := by simp [gather]

theorem sound_play [DecidableEq ι] (hms : ∀ i, (ms i).Discreet) (hsrc : src.Foreseen)
    (w : κ × υ) (l : List (Incident ι υ)) : Sound ms src w.1 ((gather ms src w).play ms src l) := by
  induction l using List.reverseRecOn with
  | nil => exact sound_gather ms src w
  | append_singleton l x ih =>
    rw [play, List.foldl_append]
    exact ih.occur hms hsrc x

end Play

end Crowd

/-- Looking ahead in the sequence shows what is drawn next. -/
theorem foreseen_fibonacci : Fibonacci.source.Foreseen where
  peek _ := rfl
  peekSeconds _ := rfl
  next _ k := Fibonacci.fst_next k

/-- Campaigns that share a generator of the sequence, carried on in whatever order and changed
from outside while they wait: all delays drawn are, in order, those that the generator gives when
it is asked alone. Whoever announces a delay draws it before anything else happens, and the
announcement bears its whole seconds. And a campaign draws nothing after an attempt that has
succeeded, has failed for good or has left it cancelled. -/
theorem draws_shared [DecidableEq ι] {ms : ι → Member υ ε} (hms : ∀ i, (ms i).Discreet)
    (g : Fibonacci) (v : υ) (l : List (Incident ι υ)) :
    let c := (Crowd.gather ms Fibonacci.source (g, v)).play ms Fibonacci.source l
    (∀ rolls : List Rolls, rolls.length = (allDelays c.record).length →
      Fibonacci.source.draws rolls g = (allDelays c.record, c.world.1)) ∧
    (∀ p n, Fibonacci.Stands p n g → (allDelays c.record).map Duration.toNanos =
      (List.range (allDelays c.record).length).map fun k => p.term (n + k + 1)) ∧
    (∀ l₁ (x : Remark ι Fibonacci υ ε) l₂, c.record = l₁ ++ x :: l₂ → x.isAnnouncement = true →
      ∃ d n, x.entry.deed = .published n ∧ Foretells d n ∧
        ((∃ (y : Remark ι Fibonacci υ ε) (l₃ : _), l₂ = y :: l₃ ∧ y.Draws x.who d) ∨
          l₂ = [] ∧ c.active = some x.who ∧ ∃ y : Remark ι Fibonacci υ ε,
            (c.occur ms Fibonacci.source (.turn x.who)).record = c.record ++ [y] ∧
              y.Draws x.who d)) ∧
    ∀ l₁ (x : Remark ι Fibonacci υ ε) l₂, c.record = l₁ ++ x :: l₂ → x.Concludes ms →
      ∀ y ∈ l₂, y.who = x.who → y.isDraw = false := by
  intro c
  have hsound : Crowd.Sound ms Fibonacci.source g c :=
    Crowd.sound_play hms foreseen_fibonacci (g, v) l
  obtain ⟨rolls₀, hrolls₀⟩ := hsound.drawn
  have hlength : rolls₀.length = (allDelays c.record).length := by
    rw [← Source.length_draws Fibonacci.source rolls₀ g, hrolls₀]
  refine ⟨fun rolls hrolls => ?_, fun p n hg => ?_, fun l₁ x l₂ hx hann => ?_,
    fun l₁ x l₂ hx hends => (hsound.concluded l₁ x l₂ hx hends).2⟩
  · rw [Fibonacci.draws_eq_of_length (hrolls.trans hlength.symm), hrolls₀]
  · rw [← hlength, ← (hg.draws rolls₀).1, hrolls₀]
  · obtain ⟨d, n, hdeed, hn, hdraws | ⟨hnil, howes⟩⟩ := hsound.announced l₁ x l₂ hx hann
    · exact ⟨d, n, hdeed, hn, .inl hdraws⟩
    · have hactive := hsound.held x.who howes.stage
      obtain ⟨moved, l', ht⟩ := Crowd.turned_turn hms foreseen_fibonacci c x.who
      refine ⟨d, n, hdeed, hn, .inr ⟨hnil, hactive, ?_⟩⟩
      rw [Crowd.occur, if_pos (.inr hactive)]
      exact ht.draws_of_owes howes

/-- Two campaigns in one rehearsal. -/
def rivals (i : Fin 2) : Member (Rehearsal.World Unit String) String where
  connector := ⟨"rival", (· == "refused"), id⟩
  settings := .standard
  surroundings := Rehearsal.surroundings i
  start := 0

/-- The first of them is refused twice, the second one once. -/
def rivalWorld : Rehearsal.World Unit String :=
  .initial ([2, 1].map fun refusals =>
    { name := "rival", ownToken := true, audience := .recorder "log", calls := 0, flight := none
      script :=
        { steps := [(refusals, ⟨.no, none, none, .failed "refused" true⟩)]
          afterwards := ⟨.no, none, none, .ok ()⟩ } }) none

/-- Each goes on until it waits, the second one first, and both again when a second is over. -/
def rivalry : List (Incident (Fin 2) (Rehearsal.World Unit String)) :=
  List.flatten
    [.replicate 4 (.turn 1), .replicate 4 (.turn 0),
      [.change fun w => { w with clock := w.clock + 1000 }],
      .replicate 6 (.turn 1), .replicate 5 (.turn 0)]

def rivalPolicy : Backoff.Policy := ⟨.ofMillis 100, .ofSecs 1⟩

/-- The two after their rivalry. -/
def rivalCrowd : Crowd (Fin 2) Fibonacci (Rehearsal.World Unit String) String :=
  (Crowd.gather rivals Fibonacci.source (.ofPolicy rivalPolicy, rivalWorld)).play rivals
    Fibonacci.source rivalry

/-- The second one connects and draws no more; the first one draws the third delay. -/
theorem draws_shared_rivals :
    (∀ i, (rivals i).Discreet) ∧
    rivalCrowd.record.map (fun x => (x.who, x.isDraw)) =
      List.replicate 4 (1, false) ++ [(1, true)] ++ List.replicate 4 (0, false) ++ [(0, true)] ++
        List.replicate 4 (1, false) ++ List.replicate 4 (0, false) ++ [(0, true)] ∧
    (allDelays rivalCrowd.record).map Duration.toNanos = [100000000, 100000000, 200000000] ∧
    (∀ rolls : List Rolls, rolls.length = 3 →
      (Fibonacci.source.draws rolls (.ofPolicy rivalPolicy)).1 = allDelays rivalCrowd.record) ∧
    ∀ y ∈ rivalCrowd.record.drop 13, y.who = 1 → y.isDraw = false := by
  have hrivals : ∀ i, (rivals i).Discreet := fun i n v => v.isCancelled_publish i i n
  obtain ⟨hdraws, hterms, -, hconcluded⟩ :=
    draws_shared hrivals (.ofPolicy rivalPolicy) rivalWorld rivalry
  have hsplit : rivalCrowd.record = rivalCrowd.record.take 12 ++ _ :: rivalCrowd.record.drop 13 :=
    rfl
  refine ⟨hrivals, rfl, ?_, fun rolls hrolls => congrArg (·.1) (hdraws rolls hrolls), ?_⟩
  · exact hterms _ 0 (Fibonacci.stands_ofPolicy _)
  · exact hconcluded _ _ _ hsplit ⟨_, _, _, rfl, rfl, .inl rfl⟩

end Campaign

end Reattempt
