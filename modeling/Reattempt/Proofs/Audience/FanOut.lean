import Reattempt.Audience.Delivery
import Mathlib.Data.List.Infix
import Mathlib.Data.List.Nodup

/-!
# Fan-out to a tree of subscribers

What a set does with an event, told without its nesting: the listeners under it are
handed the event one after another, in the order of registration. When one of them
panics, the others under the set that holds it are handed a report of that, before
anybody else is handed the event; and a panic over a report is not reported. A
listener may do anything at any time: each event bears a number of its own, so that
what it does is a function of the event.

All this is so if nobody who is handed something on the way panics with what is brittle: a
set breaks off when it throws that away.
-/

namespace Reattempt.Audience

variable {B : Type}

/-! ## Seats -/

/-- A listener with its place in a tree of subscribers. -/
structure Seat (B : Type := Empty) where
  /-- Where it stands, innermost first. -/
  place : List Nat
  listener : Listener B

mutual

/-- The listeners under a subscriber, depth first in the order of registration. -/
def seats (place : List Nat) : Subscriber B → List (Seat B)
  | .listener l => [⟨place, l⟩]
  | .set members => seatsAll place 0 members

/-- Those under members of a set, the first of them at position `i`. -/
def seatsAll (place : List Nat) (i : Nat) : List (Subscriber B) → List (Seat B)
  | [] => []
  | m :: ms => seats (i :: place) m ++ seatsAll place (i + 1) ms

end

/-- What is said of a panic: the text that it carries, or that nothing is known. -/
def wording : Payload B → String
  | .text s => s
  | .other | .brittle _ => "unknown panic"

namespace Seat

def Under (place : List Nat) (x : Seat B) : Prop := place <:+ x.place

instance (place : List Nat) : DecidablePred (Under (B := B) place) :=
  fun x => inferInstanceAs (Decidable (place <:+ x.place))

/-- `y` is under the set that holds `x`, and under another member of it. -/
def Beside (x y : Seat B) : Prop := y.Under x.place.tail ∧ ¬ y.Under x.place

instance (x : Seat B) : DecidablePred x.Beside :=
  fun y => inferInstanceAs (Decidable (y.Under x.place.tail ∧ ¬ y.Under x.place))

/-- The panic of the listener over an event is stopped. -/
def stops (e : Event) (x : Seat B) : List (Delivery B) :=
  ((x.listener.reaction e).map fun p => .stopped x.listener.name (wording p)).toList

/-- The listener is handed an event, and its panic is stopped. -/
def hears (e : Event) (x : Seat B) : List (Delivery B) :=
  .received x.place x.listener e :: x.stops e

/-- The report that the listener has panicked. -/
def report (x : Seat B) (p : Payload B) (serial : UInt64) : Event where
  kind := .subscriberPanicked
  connector := some x.listener.name
  reason := some (wording p)
  seq := serial

/-- The listener panics over the event, and that is reported. -/
def isReported (e : Event) (x : Seat B) : Bool :=
  !e.isPanicReport && (x.listener.reaction e).isSome

/-- What comes after the listener was handed an event: those beside it hear of its panic. -/
def reports (e : Event) (audience : List (Seat B)) (serial : UInt64) (x : Seat B) :
    List (Delivery B) :=
  match x.listener.reaction e with
  | none => []
  | some p =>
    if e.isPanicReport then []
    else (audience.filter (x.Beside ·)).flatMap (hears (x.report p serial))

end Seat

/-- The number of the next report when some were handed an event: each report takes one. -/
def serialAfter (e : Event) (serial : UInt64) (xs : List (Seat B)) : UInt64 :=
  serial + .ofNat (xs.countP (·.isReported e))

/-- All that happens when some of an audience are handed an event in turn. -/
def episodes (e : Event) (audience : List (Seat B)) : UInt64 → List (Seat B) → List (Delivery B)
  | _, [] => []
  | serial, x :: xs =>
    x.hears e ++ x.reports e audience serial ++ episodes e audience (serialAfter e serial [x]) xs

/-- Who was handed an event, in order. -/
def hearers (e : Event) (ds : List (Delivery B)) : List (Seat B) :=
  ds.filterMap fun
    | .received place l e' => if e' = e then some ⟨place, l⟩ else none
    | .stopped .. => none

/-! ## Places -/

theorem seatsAll_append (place : List Nat) (i : Nat) (xs ys : List (Subscriber B)) :
    seatsAll place i (xs ++ ys) = seatsAll place i xs ++ seatsAll place (i + xs.length) ys := by
  induction xs generalizing i with
  | nil => rfl
  | cons x xs ih =>
    rw [List.cons_append, seatsAll, seatsAll, ih, List.append_assoc, List.length_cons]
    congr 3
    omega

theorem eq_of_suffix_cons {i j : Nat} {place p : List Nat} (hi : i :: place <:+ p)
    (hj : j :: place <:+ p) : i = j := by
  have h := List.suffix_of_suffix_length_le hi hj (Nat.le_refl _)
  exact (List.cons.inj (h.eq_of_length rfl)).1

mutual

theorem under_of_mem_seats {place : List Nat} {x : Seat B} :
    ∀ {s : Subscriber B}, x ∈ seats place s → x.Under place
  | .listener l, h => by
    rw [seats, List.mem_singleton] at h
    exact h ▸ List.suffix_refl place
  | .set members, h => by
    rw [seats] at h
    obtain ⟨j, -, hj⟩ := under_of_mem_seatsAll h
    exact (List.suffix_cons j place).trans hj

/-- Who is under members of a set is under one of their positions. -/
theorem under_of_mem_seatsAll {place : List Nat} {i : Nat} {x : Seat B} :
    ∀ {ms : List (Subscriber B)}, x ∈ seatsAll place i ms →
      ∃ j, (i ≤ j ∧ j < i + ms.length) ∧ x.Under (j :: place)
  | [], h => by
    rw [seatsAll] at h
    cases h
  | m :: ms, h => by
    rw [seatsAll, List.mem_append] at h
    rw [List.length_cons]
    rcases h with h | h
    · exact ⟨i, by omega, under_of_mem_seats h⟩
    · obtain ⟨j, hij, hj⟩ := under_of_mem_seatsAll h
      exact ⟨j, by omega, hj⟩

end

/-- Nobody is under a position that none of the members has. -/
theorem filter_under_eq_nil {place : List Nat} {i k : Nat} {ms : List (Subscriber B)}
    (hk : k < i ∨ i + ms.length ≤ k) :
    (seatsAll place i ms).filter (·.Under (k :: place)) = [] := by
  rw [List.filter_eq_nil_iff]
  intro x hx hu
  obtain ⟨j, hj, hunder⟩ := under_of_mem_seatsAll hx
  have hkj : k = j := eq_of_suffix_cons (of_decide_eq_true hu) hunder
  omega

/-- Under one of the members of a set are just the seats below its position. -/
theorem filter_under_seatsAll (place : List Nat) (m : Subscriber B)
    (front ms : List (Subscriber B)) :
    (seatsAll place 0 (front ++ m :: ms)).filter (·.Under (front.length :: place)) =
      seats (front.length :: place) m := by
  have hself : (seats (front.length :: place) m).filter (·.Under (front.length :: place)) =
      seats (front.length :: place) m :=
    List.filter_eq_self.mpr fun x hx => decide_eq_true (under_of_mem_seats hx)
  rw [seatsAll_append, seatsAll, Nat.zero_add, List.filter_append, List.filter_append,
    filter_under_eq_nil (.inr (by omega)), hself, filter_under_eq_nil (.inl (by omega)),
    List.append_nil, List.nil_append]

mutual

theorem nodup_seats (place : List Nat) : ∀ s : Subscriber B, ((seats place s).map (·.place)).Nodup
  | .listener l => List.nodup_singleton _
  | .set members => by
    rw [seats]
    exact nodup_seatsAll place 0 members

/-- No two listeners stand in the same place. -/
theorem nodup_seatsAll (place : List Nat) (i : Nat) :
    ∀ ms : List (Subscriber B), ((seatsAll place i ms).map (·.place)).Nodup
  | [] => List.nodup_nil
  | m :: ms => by
    rw [seatsAll, List.map_append, List.nodup_append]
    refine ⟨nodup_seats (i :: place) m, nodup_seatsAll place (i + 1) ms, ?_⟩
    rintro p hp q hq rfl
    obtain ⟨x, hx, rfl⟩ := List.mem_map.mp hp
    obtain ⟨y, hy, hxy⟩ := List.mem_map.mp hq
    obtain ⟨j, hj, hunder⟩ := under_of_mem_seatsAll hy
    have hunder : j :: place <:+ x.place := hxy ▸ (show j :: place <:+ y.place from hunder)
    have hij := eq_of_suffix_cons (under_of_mem_seats hx) hunder
    omega

end

/-- No two stand in the same place. -/
theorem filter_place {xs : List (Seat B)} (hxs : (xs.map (·.place)).Nodup) {x : Seat B}
    (hx : x ∈ xs) : xs.filter (·.place = x.place) = [x] := by
  induction xs with
  | nil => cases hx
  | cons y ys ih =>
    rw [List.map_cons, List.nodup_cons] at hxs
    obtain ⟨hy, hys⟩ := hxs
    rcases List.mem_cons.mp hx with rfl | hx
    · have hnone : ys.filter (·.place = x.place) = [] := by
        rw [List.filter_eq_nil_iff]
        intro z hz hzx
        exact hy (List.mem_map.mpr ⟨z, hz, of_decide_eq_true hzx⟩)
      rw [List.filter_cons_of_pos (by simp), hnone]
    · have hyx : y.place ≠ x.place := fun h => hy (h ▸ List.mem_map.mpr ⟨x, hx, rfl⟩)
      rw [List.filter_cons_of_neg (by simpa using hyx), ih hys hx]

theorem filter_beside {audience : List (Seat B)} {members : List (Subscriber B)} {place : List Nat}
    (haudience : audience.filter (·.Under place) = seatsAll place 0 members) (i : Nat)
    (l : Listener B) : audience.filter (Seat.Beside ⟨i :: place, l⟩ ·) =
      (seatsAll place 0 members).filter (¬ ·.Under (i :: place)) := by
  rw [← haudience, List.filter_filter]
  refine List.filter_congr fun y _ => ?_
  rw [← Bool.decide_and, decide_eq_decide]
  exact And.comm

theorem filter_under_member {audience : List (Seat B)} {place : List Nat} {m : Subscriber B}
    {front ms : List (Subscriber B)}
    (haudience : audience.filter (·.Under place) = seatsAll place 0 (front ++ m :: ms)) :
    audience.filter (·.Under (front.length :: place)) = seats (front.length :: place) m := by
  rw [← filter_under_seatsAll place m front ms, ← haudience, List.filter_filter]
  refine List.filter_congr fun y _ => ?_
  rw [← Bool.decide_and, decide_eq_decide]
  exact ⟨fun h => ⟨h, (List.suffix_cons _ _).trans h⟩, And.left⟩

theorem filter_under_root (members : List (Subscriber B)) :
    (seatsAll [] 0 members).filter (·.Under []) = seatsAll [] 0 members :=
  List.filter_eq_self.mpr fun _ _ => decide_eq_true List.nil_suffix

/-! ## Episodes -/

theorem serialAfter_append (e : Event) (serial : UInt64) (xs ys : List (Seat B)) :
    serialAfter e serial (xs ++ ys) = serialAfter e (serialAfter e serial xs) ys := by
  rw [serialAfter, List.countP_append, UInt64.ofNat_add, ← UInt64.add_assoc]
  rfl

theorem episodes_append (e : Event) (audience : List (Seat B)) (serial : UInt64)
    (xs ys : List (Seat B)) : episodes e audience serial (xs ++ ys) =
      episodes e audience serial xs ++ episodes e audience (serialAfter e serial xs) ys := by
  induction xs generalizing serial with
  | nil => exact congrArg (episodes e audience · ys) (UInt64.add_zero serial).symm
  | cons x xs ih =>
    rw [List.cons_append, episodes, episodes, ih, ← serialAfter_append, List.append_assoc,
      List.append_assoc, List.append_assoc]
    rfl

theorem hearers_append (e : Event) (xs ys : List (Delivery B)) :
    hearers e (xs ++ ys) = hearers e xs ++ hearers e ys := List.filterMap_append

theorem hearers_stops (e e' : Event) (x : Seat B) : hearers e (x.stops e') = [] := by
  rw [Seat.stops]
  cases x.listener.reaction e' <;> rfl

theorem hearers_hears (e e' : Event) (x : Seat B) :
    hearers e (x.hears e') = if e' = e then [x] else [] := by
  have h : hearers e (x.hears e') =
      (if e' = e then [x] else []) ++ hearers e (x.stops e') := by
    by_cases he : e' = e <;> simp [hearers, Seat.hears, he]
  rw [h, hearers_stops, List.append_nil]

/-- What comes after a listener was handed an event is nothing, or a report handed to some. -/
theorem reports_cases (e : Event) (audience : List (Seat B)) (serial : UInt64) (x : Seat B) :
    x.reports e audience serial = [] ∨ e.isPanicReport = false ∧
      ∃ (ys : List (Seat B)) (r : Event), r.isPanicReport = true ∧
        x.reports e audience serial = ys.flatMap (Seat.hears r) := by
  cases hp : x.listener.reaction e with
  | none => exact .inl (by simp [Seat.reports, hp])
  | some p =>
    cases he : e.isPanicReport with
    | true => exact .inl (by simp [Seat.reports, hp, he])
    | false =>
      exact .inr ⟨rfl, audience.filter (x.Beside ·), x.report p serial, rfl,
        by simp [Seat.reports, hp, he]⟩

/-- Nobody hears an event when a report of some panic over it is handed out. -/
theorem hearers_reports (e : Event) (audience : List (Seat B)) (serial : UInt64) (x : Seat B) :
    hearers e (x.reports e audience serial) = [] := by
  rcases reports_cases e audience serial x with h | ⟨he, ys, r, hr, h⟩
  · rw [h]
    rfl
  · have hne : r ≠ e := by
      rintro rfl
      rw [he] at hr
      cases hr
    rw [h, hearers, List.filterMap_flatMap]
    exact List.flatMap_eq_nil_iff.mpr fun y _ => (hearers_hears e r y).trans (if_neg hne)

/-- In the episodes of an event everybody hears it once, in order. -/
theorem hearers_episodes (e : Event) (audience : List (Seat B)) (serial : UInt64)
    (xs : List (Seat B)) : hearers e (episodes e audience serial xs) = xs := by
  induction xs generalizing serial with
  | nil => rfl
  | cons x xs ih =>
    rw [episodes, hearers_append, hearers_append, hearers_hears, if_pos rfl, hearers_reports, ih]
    rfl

theorem episodes_of_isPanicReport {e : Event} (he : e.isPanicReport = true)
    (audience : List (Seat B)) (serial : UInt64) (xs : List (Seat B)) :
    episodes e audience serial xs = xs.flatMap (·.hears e) := by
  induction xs generalizing serial with
  | nil => rfl
  | cons x xs ih =>
    have hreports := (reports_cases e audience serial x).resolve_right (by simp [he])
    rw [episodes, hreports, ih, List.append_nil, List.flatMap_cons]

theorem serialAfter_of_isPanicReport {e : Event} (he : e.isPanicReport = true) (serial : UInt64)
    (xs : List (Seat B)) : serialAfter e serial xs = serial := by
  have hnone : xs.countP (·.isReported e) = 0 := by
    rw [List.countP_eq_zero]
    simp [Seat.isReported, he]
  rw [serialAfter, hnone]
  exact UInt64.add_zero serial

/-! ## Calm -/

/-- A listener panics with what is brittle. -/
def Delivery.isBrittle : Delivery B → Bool
  | .received _ l e =>
    match l.reaction e with
    | some (.brittle _) => true
    | _ => false
  | .stopped .. => false

/-- No panic carries what is brittle. -/
def Calm (ds : List (Delivery B)) : Prop := ∀ d ∈ ds, d.isBrittle = false

theorem calm_append {xs ys : List (Delivery B)} : Calm (xs ++ ys) ↔ Calm xs ∧ Calm ys :=
  List.forall_mem_append

/-- Where nothing is brittle all is calm. -/
theorem calm_of_empty (ds : List Delivery) : Calm ds := by
  rintro (⟨place, l, e⟩ | _) -
  · rw [Delivery.isBrittle]
    rcases l.reaction e with _ | _ | _ | b
    · rfl
    · rfl
    · rfl
    · exact nomatch b
  · rfl

theorem info_eq_wording (p : Payload B) : p.info = wording p := by
  cases p <;> rfl

variable [Brittle B]

/-- What is left of a listener's panic when it has been reported and what it carried is thrown
away. -/
def Listener.leaves (e : Event) (l : Listener B) : Option (Panic B) :=
  (l.reaction e).bind fun p => p.discard none

theorem discard_of_calm {l : Listener B} {e : Event} {place : List Nat} {p : Payload B}
    (hcalm : Delivery.isBrittle (.received place l e) = false) (hp : l.reaction e = some p)
    (panic : Option (Panic B)) : p.discard panic = panic := by
  cases p with
  | brittle b => simp [Delivery.isBrittle, hp] at hcalm
  | _ => rfl

theorem leaves_of_calm {l : Listener B} {e : Event} {place : List Nat}
    (hcalm : Delivery.isBrittle (.received place l e) = false) : l.leaves e = none := by
  rw [Listener.leaves]
  cases hp : l.reaction e with
  | none => rfl
  | some p => exact discard_of_calm hcalm hp none

/-- A listener panics, and the set that holds it stops that. -/
theorem caught_hear (l : Listener B) (e : Event) (place : List Nat)
    (report : Payload B → Outcome B) : (l.hear place e).caught (.listener l) report =
      ⟨Seat.hears e ⟨place, l⟩ ++ ((l.reaction e).map fun p => (report p).deliveries).getD [],
        (l.reaction e).bind fun p => p.discard (report p).panic⟩ := by
  cases hp : l.reaction e <;>
    simp [Outcome.caught, Listener.hear, Seat.hears, Seat.stops, hp, info_eq_wording,
      Subscriber.name]

/-! ## Reports -/

mutual

/-- Everybody under a subscriber hears what is relayed. -/
theorem relay_eq (e : Event) (place : List Nat) : ∀ s : Subscriber B,
    Calm ((seats place s).flatMap (·.hears e)) →
      (relay e place s).caught s (fun _ => .nothing) = ⟨(seats place s).flatMap (·.hears e), none⟩
  | .listener l, hcalm => by
    rw [seats, List.flatMap_singleton] at hcalm ⊢
    have hnobody :
        ((l.reaction e).map fun _ => (.nothing : Outcome B).deliveries).getD [] = [] := by
      cases l.reaction e <;> rfl
    have hleaves : ((l.reaction e).bind fun p => p.discard (.nothing : Outcome B).panic) = none :=
      leaves_of_calm (hcalm _ List.mem_cons_self)
    rw [relay, caught_hear, hnobody, hleaves, List.append_nil]
  | .set members, hcalm => by
    rw [relay, relayAll_none e place 0 members hcalm]
    rfl

theorem relayAll_none (e : Event) (place : List Nat) (i : Nat) : ∀ ms : List (Subscriber B),
    Calm ((seatsAll place i ms).flatMap (·.hears e)) →
      relayAll e place none i ms = ⟨(seatsAll place i ms).flatMap (·.hears e), none⟩
  | [], _ => rfl
  | m :: ms, hcalm => by
    rw [seatsAll, List.flatMap_append, calm_append] at hcalm
    rw [relayAll, seatsAll, List.flatMap_append, if_neg nofun, relay_eq e (i :: place) m hcalm.1,
      relayAll_none e place (i + 1) ms hcalm.2]
    rfl

end

/-- Everybody but those under the member at `k`. -/
theorem relayAll_some (e : Event) (place : List Nat) (k i : Nat) (ms : List (Subscriber B))
    (hcalm : Calm (((seatsAll place i ms).filter (¬ ·.Under (k :: place))).flatMap (·.hears e))) :
    relayAll e place (some k) i ms =
      ⟨((seatsAll place i ms).filter (¬ ·.Under (k :: place))).flatMap (·.hears e), none⟩ := by
  induction ms generalizing i with
  | nil => rfl
  | cons m ms ih =>
    rw [seatsAll, List.filter_append, List.flatMap_append, calm_append] at hcalm
    rw [relayAll, seatsAll, List.filter_append, List.flatMap_append, ih (i + 1) hcalm.2]
    by_cases hk : k = i
    · subst hk
      have hnone : (seats (k :: place) m).filter (¬ ·.Under (k :: place)) = [] := by
        rw [List.filter_eq_nil_iff]
        intro x hx hu
        exact of_decide_eq_true hu (under_of_mem_seats hx)
      rw [hnone, if_pos rfl]
      rfl
    · have hall : (seats (i :: place) m).filter (¬ ·.Under (k :: place)) =
          seats (i :: place) m := by
        rw [List.filter_eq_self]
        intro x hx
        exact decide_eq_true fun hu => hk (eq_of_suffix_cons hu (under_of_mem_seats hx))
      rw [hall] at hcalm ⊢
      rw [if_neg (by simpa using hk), relay_eq e (i :: place) m hcalm.1]
      rfl

/-- The others under the set that holds a listener hear the report of its panic, before what it
carried is thrown away. -/
theorem reportPanic_listener {e : Event} (he : e.isPanicReport = false) {audience : List (Seat B)}
    {members : List (Subscriber B)} {place : List Nat}
    (haudience : audience.filter (·.Under place) = seatsAll place 0 members) (i : Nat)
    (l : Listener B) (serial : UInt64)
    (hcalm : Calm (Seat.reports e audience serial ⟨i :: place, l⟩)) :
    reportPanic members place i (.listener l) (l.hear (i :: place) e) serial =
      (⟨episodes e audience serial [⟨i :: place, l⟩], l.leaves e⟩,
        serialAfter e serial [⟨i :: place, l⟩]) := by
  rw [episodes, episodes, List.append_nil, reportPanic, caught_hear, Listener.leaves]
  cases hp : l.reaction e with
  | none => simp [Listener.hear, Seat.reports, serialAfter, Seat.isReported, hp]
  | some p =>
    have hreports : Seat.reports e audience serial ⟨i :: place, l⟩ =
        ((seatsAll place 0 members).filter (¬ ·.Under (i :: place))).flatMap
          (·.hears (panicReport serial (.listener l) p)) := by
      rw [Seat.reports, hp, filter_beside haudience, panicReport, info_eq_wording]
      simp [he]
      rfl
    rw [hreports] at hcalm ⊢
    rw [Option.map_some, Option.bind_some, relayAll_some _ _ _ _ _ hcalm]
    simp [Listener.hear, serialAfter, Seat.isReported, hp, he]

/-! ## Announcements -/

/-- A member of a set is handed an event, and its panic is reported. -/
def handOver (e : Event) (place : List Nat) (all : List (Subscriber B)) (i : Nat)
    (m : Subscriber B) (serial : UInt64) : Outcome B × UInt64 :=
  let o := announce e (i :: place) m serial
  reportPanic all place i m o.1 o.2

theorem announceAll_nil (e : Event) (place : List Nat) (all : List (Subscriber B)) (i : Nat)
    (serial : UInt64) : announceAll e place all i [] serial = (.nothing, serial) := rfl

theorem announceAll_cons (e : Event) (place : List Nat) (all : List (Subscriber B)) (i : Nat)
    (m : Subscriber B) (ms : List (Subscriber B)) (serial : UInt64) :
    announceAll e place all i (m :: ms) serial =
      match (handOver e place all i m serial).1.panic with
      | some _ => handOver e place all i m serial
      | none =>
        let rest := announceAll e place all (i + 1) ms (handOver e place all i m serial).2
        ((handOver e place all i m serial).1.andThen rest.1, rest.2) := by
  rw [announceAll]
  rfl

/-- A member that has let no panic through is followed by the others. -/
theorem announceAll_cons_of_none {e : Event} {place : List Nat} {all : List (Subscriber B)}
    {i : Nat} {m : Subscriber B} {ms : List (Subscriber B)} {serial next : UInt64}
    {ds : List (Delivery B)} (h : handOver e place all i m serial = (⟨ds, none⟩, next)) :
    announceAll e place all i (m :: ms) serial =
      (⟨ds ++ (announceAll e place all (i + 1) ms next).1.deliveries,
        (announceAll e place all (i + 1) ms next).1.panic⟩,
      (announceAll e place all (i + 1) ms next).2) := by
  rw [announceAll_cons, h]
  rfl

/-- Behind a member that has let a panic through nobody follows. -/
theorem announceAll_cons_of_some {e : Event} {place : List Nat} {all : List (Subscriber B)}
    {i : Nat} {m : Subscriber B} {ms : List (Subscriber B)} {serial next : UInt64}
    {ds : List (Delivery B)} {p : Panic B}
    (h : handOver e place all i m serial = (⟨ds, some p⟩, next)) :
    announceAll e place all i (m :: ms) serial = (⟨ds, some p⟩, next) := by
  rw [announceAll_cons, h]

theorem handOver_listener {e : Event} (he : e.isPanicReport = false) {audience : List (Seat B)}
    {place : List Nat} {all : List (Subscriber B)}
    (haudience : audience.filter (·.Under place) = seatsAll place 0 all) (i : Nat)
    (l : Listener B) (serial : UInt64)
    (hcalm : Calm (Seat.reports e audience serial ⟨i :: place, l⟩)) :
    handOver e place all i (.listener l) serial =
      (⟨episodes e audience serial [⟨i :: place, l⟩], l.leaves e⟩,
        serialAfter e serial [⟨i :: place, l⟩]) := by
  rw [handOver, announce]
  exact reportPanic_listener he haudience i l serial hcalm

theorem handOver_set_of_none {e : Event} {place : List Nat} {all : List (Subscriber B)} {i : Nat}
    {members : List (Subscriber B)} {serial : UInt64} {ds : List (Delivery B)} {next : UInt64}
    (h : announceAll e (i :: place) members 0 members serial = (⟨ds, none⟩, next)) :
    handOver e place all i (.set members) serial = (⟨ds, none⟩, next) := by
  rw [handOver, announce, h]
  rfl

mutual

/-- When a member of a set is handed an event, the listeners under it are handed it in turn. -/
theorem handOver_eq {e : Event} (he : e.isPanicReport = false) {audience : List (Seat B)}
    {place : List Nat} {all : List (Subscriber B)}
    (haudience : audience.filter (·.Under place) = seatsAll place 0 all)
    (front : List (Subscriber B)) {ms : List (Subscriber B)} : ∀ {m : Subscriber B}
    (_ : all = front ++ m :: ms) (serial : UInt64)
    (_ : Calm (episodes e audience serial (seats (front.length :: place) m))),
    handOver e place all front.length m serial =
      (⟨episodes e audience serial (seats (front.length :: place) m), none⟩,
        serialAfter e serial (seats (front.length :: place) m))
  | .listener l, hall, serial, hcalm => by
    rw [seats] at hcalm ⊢
    rw [episodes, episodes, List.append_nil, calm_append] at hcalm
    rw [handOver_listener he haudience front.length l serial hcalm.2,
      leaves_of_calm (hcalm.1 _ List.mem_cons_self)]
  | .set members, hall, serial, hcalm => by
    rw [seats] at hcalm ⊢
    have hmember := filter_under_member (hall ▸ haudience)
    have hmembers := announceAll_append he hmember [] [] (List.append_nil members).symm serial hcalm
      (announceAll_nil _ _ _ _ _)
    rw [List.append_nil, Outcome.nothing, List.append_nil] at hmembers
    exact handOver_set_of_none hmembers

/-- When members of a set are handed an event, the listeners under them are handed it in turn, and
the others come next. -/
theorem announceAll_append {e : Event} (he : e.isPanicReport = false) {audience : List (Seat B)}
    {place : List Nat} {all : List (Subscriber B)}
    (haudience : audience.filter (·.Under place) = seatsAll place 0 all)
    (front rest : List (Subscriber B)) : ∀ {ms : List (Subscriber B)}
    (_ : all = front ++ (ms ++ rest)) (serial : UInt64)
    (_ : Calm (episodes e audience serial (seatsAll place front.length ms)))
    {r : Outcome B × UInt64} (_ : announceAll e place all (front ++ ms).length rest
      (serialAfter e serial (seatsAll place front.length ms)) = r),
    announceAll e place all front.length (ms ++ rest) serial =
      (⟨episodes e audience serial (seatsAll place front.length ms) ++ r.1.deliveries,
        r.1.panic⟩, r.2)
  | [], _, serial, _, r, hr => by
    rw [List.append_nil, seatsAll] at hr
    rw [List.nil_append, ← hr]
    exact congrArg (announceAll e place all front.length rest) (UInt64.add_zero serial).symm
  | m :: ms, hall, serial, hcalm, r, hr => by
    have hfront (xs : List (Subscriber B)) : front ++ m :: xs = (front ++ [m]) ++ xs := by
      rw [List.append_assoc, List.singleton_append]
    rw [seatsAll] at hcalm hr ⊢
    rw [episodes_append, calm_append] at hcalm
    rw [serialAfter_append, hfront] at hr
    have hlength : (front ++ [m]).length = front.length + 1 := List.length_append
    have hm := handOver_eq he haudience front hall serial hcalm.1
    have hrest := announceAll_append he haudience (front ++ [m]) rest
      (hall.trans (hfront (ms ++ rest))) (serialAfter e serial (seats (front.length :: place) m))
    rw [hlength] at hrest
    rw [List.cons_append, announceAll_cons_of_none hm, hrest hcalm.2 hr, episodes_append,
      List.append_assoc]

end

/-! ## Delivery -/

/-- What a set does with an event is what the listeners under it do in turn, if that is calm. -/
theorem deliver_of_calm (e : Event) (members : List (Subscriber B)) (serial : UInt64)
    (hcalm : Calm (episodes e (seats [] (.set members)) serial (seats [] (.set members)))) :
    deliver e (.set members) serial =
      (⟨episodes e (seats [] (.set members)) serial (seats [] (.set members)), none⟩,
        serialAfter e serial (seats [] (.set members))) := by
  rw [seats] at hcalm ⊢
  cases he : e.isPanicReport with
  | true =>
    rw [episodes_of_isPanicReport he] at hcalm ⊢
    rw [deliver, if_pos he, serialAfter_of_isPanicReport he, relay,
      relayAll_none e [] 0 members hcalm]
  | false =>
    have hall := announceAll_append he (filter_under_root members) [] []
      (List.append_nil members).symm serial hcalm (announceAll_nil _ _ _ _ _)
    rw [List.append_nil, Outcome.nothing, List.append_nil] at hall
    rw [deliver, if_neg (by simp [he]), announce]
    exact hall

/-- Where nothing is brittle it always is. -/
theorem deliver_eq_episodes (e : Event) (members : List Subscriber) (serial : UInt64) :
    deliver e (.set members) serial =
      (⟨episodes e (seats [] (.set members)) serial (seats [] (.set members)), none⟩,
        serialAfter e serial (seats [] (.set members))) :=
  deliver_of_calm e members serial (calm_of_empty _)

end Reattempt.Audience
