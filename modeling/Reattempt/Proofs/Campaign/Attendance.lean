import Reattempt.Proofs.Audience.FanOut
import Reattempt.Proofs.Campaign.Bare
import Reattempt.Proofs.Campaign.Projection
import Reattempt.Proofs.Campaign.Stream

/-!
# Campaigns before an audience

Who listens to a campaign, and who panics over what it says, makes no difference to
its course; and who listens is told the same, whoever else listens. The audience is
a set of subscribers, or nobody; it has nothing of the world but the number of the
next event, of which others may take some at any time.
-/

namespace Reattempt

namespace Audience

/-- A set of subscribers, or nobody. -/
def gathering : Option (List Subscriber) → Subscriber
  | some members => .set members
  | none => .silent

/-- What the listener at a place is told, without numbers, and apart from reports of panics. -/
def toldAt (place : List Nat) (ds : List Delivery) : List Notice :=
  ds.filterMap fun
    | .received p _ e => if p = place ∧ e.isPanicReport = false then some e.toNotice else none
    | .stopped .. => none

theorem toldAt_append (place : List Nat) (xs ys : List Delivery) :
    toldAt place (xs ++ ys) = toldAt place xs ++ toldAt place ys := List.filterMap_append

theorem toldAt_hears (place : List Nat) (e : Event) (x : Seat) :
    toldAt place (x.hears e) =
      if x.place = place ∧ e.isPanicReport = false then [e.toNotice] else [] := by
  have hstopped : toldAt place (x.stops e) = [] := by
    rw [Seat.stops]
    cases x.listener.reaction e <;> rfl
  by_cases hx : x.place = place ∧ e.isPanicReport = false
  · rw [if_pos hx]
    simp only [Seat.hears, toldAt, List.filterMap_cons, if_pos hx]
    exact congrArg (e.toNotice :: ·) hstopped
  · rw [if_neg hx]
    simp only [Seat.hears, toldAt, List.filterMap_cons, if_neg hx]
    exact hstopped

theorem toldAt_reports (place : List Nat) (e : Event) (audience : List Seat) (serial : UInt64)
    (x : Seat) : toldAt place (x.reports e audience serial) = [] := by
  rcases reports_cases e audience serial x with h | ⟨-, ys, r, hr, h⟩
  · rw [h]
    rfl
  · rw [h, toldAt, List.filterMap_flatMap]
    exact List.flatMap_eq_nil_iff.mpr fun y _ =>
      (toldAt_hears place r y).trans (if_neg (by simp [hr]))

/-- Where one of those who are handed an event stands, the event is told. -/
theorem toldAt_episodes (place : List Nat) {e : Event} (he : e.isPanicReport = false)
    (audience : List Seat) (serial : UInt64) (xs : List Seat) :
    toldAt place (episodes e audience serial xs) =
      (xs.filter (·.place = place)).map fun _ => e.toNotice := by
  induction xs generalizing serial with
  | nil => rfl
  | cons x xs ih =>
    rw [episodes, toldAt_append, toldAt_append, toldAt_hears, toldAt_reports, ih]
    by_cases hx : x.place = place <;> simp [hx, he]

theorem publish_silent (n : Notice) (serial : UInt64) :
    (publish n (.silent : Subscriber) serial).1.panic = none ∧
      ∃ l : Listener, (publish n .silent serial).1.deliveries =
        [.received [] l { n with seq := serial }] := by
  rw [publish, deliver]
  split <;> exact ⟨rfl, _, rfl⟩

theorem panic_publish (o : Option (List Subscriber)) (n : Notice) (serial : UInt64) :
    (publish n (gathering o) serial).1.panic = none := by
  cases o with
  | none => exact (publish_silent n serial).1
  | some members =>
    rw [gathering, publish, deliver_eq_episodes]

/-- Whoever listens is told what is published. -/
theorem toldAt_publish {o : Option (List Subscriber)} {x : Seat} (hx : x ∈ seats [] (gathering o))
    {n : Notice} (hn : n.kind ≠ .subscriberPanicked) (serial : UInt64) :
    toldAt x.place (publish n (gathering o) serial).1.deliveries = [n] := by
  have he : Event.isPanicReport { n with seq := serial } = false := by simpa [Event.isPanicReport]
  cases o with
  | none =>
    obtain ⟨-, l, hl⟩ := publish_silent n serial
    have hplace : x.place = [] := by
      rw [gathering, Subscriber.silent, seats, List.mem_singleton] at hx
      rw [hx]
    rw [gathering, hl, hplace]
    simp [toldAt, he]
  | some members =>
    rw [gathering] at hx ⊢
    rw [publish, deliver_eq_episodes]
    show toldAt x.place (episodes _ _ _ _) = [n]
    rw [toldAt_episodes x.place he, filter_place (nodup_seats [] _) hx]
    rfl

end Audience

namespace Campaign

open Audience (gathering toldAt)

variable {ω ε : Type}

/-- The same source in a larger world. -/
def aside {κ : Type} (src : Backoff.Source ω) : Backoff.Source (ω × κ) where
  next rolls p := ((src.next rolls p.1).1, (src.next rolls p.1).2, p.2)
  peek p := ((src.peek p.1).1, (src.peek p.1).2, p.2)
  peekSeconds p := ((src.peekSeconds p.1).1, (src.peekSeconds p.1).2, p.2)

/-- The same brief in a larger world. -/
def Brief.aside {κ : Type} (b : Brief ω ε) : Brief (ω × κ) ε :=
  ⟨b.connector, b.settings, b.shared.map Campaign.aside⟩

/-- Surroundings with an audience, beside the number of the next event. -/
def Surroundings.before (env : Surroundings ω ε) (s : Audience.Subscriber) :
    Surroundings (ω × UInt64) ε :=
  env.heard fun n serial => (Audience.publish n s serial).2

/-- What came of all that a campaign has published before an audience. -/
def receptions (s : Audience.Subscriber) (l : Record (ω × UInt64) ε) : List Audience.Outcome :=
  l.filterMap fun x => x.deed.notice?.map fun n => (Audience.publish n s x.before.2).1

/-- What was told to the listener at a place. -/
def told (s : Audience.Subscriber) (place : List Nat) (l : Record (ω × UInt64) ε) : List Notice :=
  (receptions s l).flatMap fun o => toldAt place o.deliveries

theorem Brief.part_aside {κ : Type} (b : Brief ω ε) :
    Brief.Part (Prod.fst (β := κ)) b.aside b where
  connector := rfl
  settings := rfl
  shared := by
    show Option.Rel _ (b.shared.map _) b.shared
    cases b.shared with
    | none => exact .none
    | some src => exact .some ⟨fun _ _ => rfl, fun _ => rfl, fun _ => rfl⟩

theorem notices_part {υ : Type} (π : υ → ω) (r : Recording υ (Deed ε)) :
    notices (r.part π).2 = notices r.2 := List.filterMap_map

/-- A campaign never says that a subscriber has panicked. -/
theorem kind_ne_of_mem_notices {b : Brief ω ε} {env : Surroundings ω ε}
    {drift : State ε → ω → ω → Prop} {now : Nat} {w : ω} {s : State ε}
    {r : Recording ω (Deed ε)}
    (run : Run (State.step b.recorded env.recorded) (Recording.drift drift) (.begin b now) (w, [])
      s r) {n : Notice} (hn : n ∈ notices r.2) : n.kind ≠ .subscriberPanicked := by
  obtain ⟨said, closing, hnarrated, -, hreaches⟩ := narrated_run run
  have hs := hreaches.sensible
  have hk : n.kind ∈ (blocks said).map (·.1) ++ closing.toList :=
    hnarrated.kinds ▸ List.mem_map_of_mem hn
  intro hpanic
  rw [hpanic, List.mem_append] at hk
  rcases hk with hk | hk
  · obtain ⟨p, hp, hkind⟩ := List.mem_map.mp hk
    rcases kind_of_mem_blocks hp with h | h
    · rw [hkind] at h
      cases h
    · rcases hs.outcomes _ h _ rfl with h | h | h <;> rw [hkind] at h <;> cases h
  · rcases hs.own _ (Option.mem_toList.mp hk) with h | h <;> cases h

/-- Whoever listens is told all that is published. -/
theorem told_eq_notices {o : Option (List Audience.Subscriber)} {x : Audience.Seat}
    (hx : x ∈ Audience.seats [] (gathering o)) {l : Record (ω × UInt64) ε}
    (hl : ∀ n ∈ notices l, n.kind ≠ .subscriberPanicked) :
    told (gathering o) x.place l = notices l := by
  induction l with
  | nil => rfl
  | cons y l ih =>
    cases hy : y.deed.notice? with
    | none =>
      have hnotices : notices (y :: l) = notices l := List.filterMap_cons_none hy
      have htold : told (gathering o) x.place (y :: l) = told (gathering o) x.place l := by
        simp [told, receptions, hy]
      rw [hnotices] at hl ⊢
      rw [htold, ih hl]
    | some n =>
      have hnotices : notices (y :: l) = n :: notices l := List.filterMap_cons_some hy
      have htold : told (gathering o) x.place (y :: l) =
          toldAt x.place (Audience.publish n (gathering o) y.before.2).1.deliveries ++
            told (gathering o) x.place l := by
        simp [told, receptions, hy]
      rw [hnotices] at hl ⊢
      rw [htold, Audience.toldAt_publish hx (hl n List.mem_cons_self),
        ih fun m hm => hl m (List.mem_cons_of_mem n hm)]
      rfl

/-- Whoever the audience is, under matching schedules a campaign takes the same course: it comes
to the same state at the same time, has asked the same of its connector and its generator, and has
published the same. No panic of the audience is let through; and whoever listens is told just
what the campaign has published, be it before others or alone, and whoever panics. -/
theorem course_before (b : Brief ω ε) (env : Surroundings ω ε)
    (o₁ o₂ : Option (List Audience.Subscriber)) {l : List (Happening ω)}
    {l₁ l₂ : List (Happening (ω × UInt64))}
    (hl₁ : List.Forall₂ (Happening.Part Prod.fst) l₁ l)
    (hl₂ : List.Forall₂ (Happening.Part Prod.fst) l₂ l) (w : ω) (serial₁ serial₂ : UInt64) :
    let c₁ := b.aside.course (env.before (gathering o₁)) l₁ (w, serial₁)
    let c₂ := b.aside.course (env.before (gathering o₂)) l₂ (w, serial₂)
    c₁.1 = c₂.1 ∧ c₁.2.part Prod.fst = c₂.2.part Prod.fst ∧
    (∀ x ∈ receptions (gathering o₁) c₁.2.2, x.panic = none) ∧
    ∀ x ∈ Audience.seats [] (gathering o₁), ∀ y ∈ Audience.seats [] (gathering o₂),
      told (gathering o₁) x.place c₁.2.2 = told (gathering o₂) y.place c₂.2.2 ∧
      told (gathering o₁) x.place c₁.2.2 = notices c₁.2.2 := by
  intro c₁ c₂
  have hsame (o : Option (List Audience.Subscriber)) {k : List (Happening (ω × UInt64))}
      (hk : List.Forall₂ (Happening.Part Prod.fst) k l) (serial : UInt64) :
      b.course env.silent l w = (_, Recording.part Prod.fst _) :=
    course_part b.part_aside
      (env.part_heard fun n serial => (Audience.publish n (gathering o) serial).2) hk (w, serial)
  obtain ⟨hstate, hrecord⟩ := Prod.mk.inj ((hsame o₁ hl₁ serial₁).symm.trans (hsame o₂ hl₂ serial₂))
  have htold (o : Option (List Audience.Subscriber)) (k : List (Happening (ω × UInt64)))
      (serial : UInt64) {x : Audience.Seat} (hx : x ∈ Audience.seats [] (gathering o)) :
      told (gathering o) x.place (b.aside.course (env.before (gathering o)) k (w, serial)).2.2 =
        notices (b.aside.course (env.before (gathering o)) k (w, serial)).2.2 :=
    told_eq_notices hx fun n hn => kind_ne_of_mem_notices (run_of_course _ _ _ _) hn
  have hnotices : notices c₁.2.2 = notices c₂.2.2 := by
    rw [← notices_part Prod.fst c₁.2, ← notices_part Prod.fst c₂.2]
    exact congrArg (fun r => notices r.2) hrecord
  refine ⟨hstate, hrecord, fun x hx => ?_, fun x hx y hy => ?_⟩
  · obtain ⟨y, -, hy⟩ := List.mem_filterMap.mp hx
    obtain ⟨n, -, rfl⟩ := Option.map_eq_some_iff.mp hy
    exact Audience.panic_publish o₁ n y.before.2
  · rw [htold o₁ l₁ serial₁ hx, htold o₂ l₂ serial₂ hy]
    exact ⟨hnotices, rfl⟩

/-- A set in which one member panics over everything, and one of a set beside it over pauses. -/
def uneasy : List Audience.Subscriber :=
  [.faulty "rash" "rash" (fun _ => true) .other,
   .set [.faulty "shy" "shy" (· = .backoffScheduled) (.text "boom"), .recorder "log"]]

/-- The course of `hesitant` before an audience. -/
def hesitantBefore (o : Option (List Audience.Subscriber)) :=
  hesitant.aside.course ((Rehearsal.surroundings 0).before (gathering o))
    (hesitantly.map .outside) (hesitantWorld, 0)

/-- The recorder in `uneasy` is told what it is told alone. -/
theorem course_before_hesitant :
    (hesitantBefore (some uneasy)).1.result? = some (.ok ()) ∧
    (hesitantBefore none).1 = (hesitantBefore (some uneasy)).1 ∧
    (hesitantBefore none).2.part Prod.fst = (hesitantBefore (some uneasy)).2.part Prod.fst ∧
    (receptions (gathering (some uneasy)) (hesitantBefore (some uneasy)).2.2).length = 4 ∧
    told (gathering (some uneasy)) [1, 1] (hesitantBefore (some uneasy)).2.2 =
      told (gathering (some [.recorder "log"])) [0] (hesitantBefore (some [.recorder "log"])).2.2 ∧
    (told (gathering (some uneasy)) [1, 1] (hesitantBefore (some uneasy)).2.2).map (·.kind) =
      [.attemptStarting, .backoffScheduled, .attemptStarting, .connected] := by
  have hl := Happening.part_outside (κ := UInt64) hesitantly
  obtain ⟨hstate, hrecord, -⟩ := course_before hesitant (Rehearsal.surroundings 0) none
    (some uneasy) hl hl hesitantWorld 0 0
  obtain ⟨-, -, -, htold⟩ := course_before hesitant (Rehearsal.surroundings 0) (some uneasy)
    (some [.recorder "log"]) hl hl hesitantWorld 0 0
  have hrecorder : (⟨[1, 1], ⟨"log", fun e => [.heard "log" e], fun _ => none⟩⟩ : Audience.Seat) ∈
      Audience.seats [] (gathering (some uneasy)) := .tail _ (.tail _ (.head _))
  have halone : (⟨[0], ⟨"log", fun e => [.heard "log" e], fun _ => none⟩⟩ : Audience.Seat) ∈
      Audience.seats [] (gathering (some [.recorder "log"])) := .head _
  obtain ⟨hsame, hnotices⟩ := htold _ hrecorder _ halone
  refine ⟨rfl, hstate, hrecord, rfl, hsame, ?_⟩
  exact (congrArg (List.map (·.kind)) hnotices).trans rfl

end Campaign

end Reattempt
