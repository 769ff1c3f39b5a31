import Reattempt.Proofs.Audience.FanOut

/-!
# When members of a set are kept apart

A set does what is told without its nesting exactly if nobody who is handed something on
the way panics with what is brittle. One direction is the fan-out. For the other, panics are
counted. Each panic of a listener is stopped once, and where it carried something brittle, so
is the one that comes of throwing that away, unless it gets out of the tree or ends the
process. The episodes of an event have one stop for each panic of a listener and none to
spare.
-/

namespace Reattempt.Audience

variable {B : Type}

/-! ## Counting panics -/

/-- A listener panics. -/
def Delivery.isPanic : Delivery B → Bool
  | .received _ l e => (l.reaction e).isSome
  | .stopped .. => false

def Delivery.isStop : Delivery B → Bool
  | .received .. => false
  | .stopped .. => true

/-- How many panics are to be stopped still: the one that is on its way, and the one that comes of
throwing away what it carries. -/
def owed : Option (Panic B) → Nat
  | some (.unwinding (.brittle _)) => 2
  | some (.unwinding _) => 1
  | _ => 0

/-- Unless the process has ended, every panic of a listener was stopped or is on its way, and
so is another one for each that carried something brittle. -/
def Accounted (o : Outcome B) : Prop :=
  (∃ b, o.panic = some (.abort b)) ∨
    o.deliveries.countP (·.isPanic) + o.deliveries.countP (·.isBrittle) ≤
      o.deliveries.countP (·.isStop) + owed o.panic

theorem owed_none : owed (none : Option (Panic B)) = 0 := rfl

theorem andThen_of_none (ds : List (Delivery B)) (next : Outcome B) :
    Outcome.andThen ⟨ds, none⟩ next = ⟨ds ++ next.deliveries, next.panic⟩ := rfl

theorem accounted_nothing : Accounted (.nothing : Outcome B) := .inr (Nat.le_refl _)

theorem accounted_hear (place : List Nat) (e : Event) (l : Listener B) :
    Accounted (l.hear place e) := by
  right
  rcases hp : l.reaction e with _ | _ | _ | b <;>
    simp [Listener.hear, Delivery.isPanic, Delivery.isBrittle, Delivery.isStop, owed, hp]

theorem Accounted.andThen {o next : Outcome B} (ho : Accounted o) (hnext : Accounted next) :
    Accounted (o.andThen next) := by
  obtain ⟨ds, panic⟩ := o
  cases panic with
  | some p => exact ho
  | none =>
    rcases ho with ⟨b, hb⟩ | ho
    · cases hb
    · refine hnext.imp_right fun hnext => ?_
      simp only [andThen_of_none, List.countP_append, owed_none] at ho ⊢
      omega

section Runs

variable [Brittle B]

/-- One panic less is owed when it is stopped and what it carried is thrown away. -/
theorem owed_discard (p : Payload B) (panic : Option (Panic B)) :
    (∃ b, p.discard panic = some (.abort b)) ∨
      owed (some (.unwinding p)) + owed panic ≤ owed (p.discard panic) + 1 := by
  rcases panic with _ | q | b
  · right
    cases p with
    | brittle b =>
      rw [Payload.discard]
      cases Brittle.left b <;> simp [owed]
    | _ => exact Nat.le_refl _
  · cases p with
    | brittle b => exact .inl ⟨b, rfl⟩
    | _ => exact .inr (Nat.le_of_eq (Nat.add_comm _ _))
  · exact .inl ⟨b, by cases p <;> rfl⟩

theorem caught_unwinding (ds : List (Delivery B)) (p : Payload B) (m : Subscriber B)
    (report : Payload B → Outcome B) : Outcome.caught ⟨ds, some (.unwinding p)⟩ m report =
      ⟨ds ++ .stopped m.name p.info :: (report p).deliveries, p.discard (report p).panic⟩ := rfl

theorem Accounted.caught {o : Outcome B} (ho : Accounted o) (m : Subscriber B)
    {report : Payload B → Outcome B} (hreport : ∀ p, Accounted (report p)) :
    Accounted (o.caught m report) := by
  obtain ⟨ds, _ | p | b⟩ := o
  · exact ho
  · rw [caught_unwinding]
    rcases owed_discard p (report p).panic with h | howed
    · exact .inl h
    rcases ho with ⟨b, hb⟩ | ho
    · cases hb
    rcases hreport p with ⟨b, hb⟩ | hr
    · exact .inl ⟨b, by rw [hb]; cases p <;> rfl⟩
    right
    simp only [List.countP_append, List.countP_cons, Delivery.isPanic, Delivery.isBrittle,
      Delivery.isStop, Bool.false_eq_true, ↓reduceIte] at ho hr ⊢
    omega
  · exact ho

mutual

theorem accounted_relay (e : Event) (place : List Nat) :
    ∀ s : Subscriber B, Accounted (relay e place s)
  | .listener l => by
    rw [relay]
    exact accounted_hear place e l
  | .set members => by
    rw [relay]
    exact accounted_relayAll e place none 0 members

theorem accounted_relayAll (e : Event) (place : List Nat) (skip : Option Nat) (i : Nat) :
    ∀ ms : List (Subscriber B), Accounted (relayAll e place skip i ms)
  | [] => accounted_nothing
  | m :: ms => by
    have hrest := accounted_relayAll e place skip (i + 1) ms
    have hm := (accounted_relay e (i :: place) m).caught m fun _ => accounted_nothing
    rw [relayAll]
    split
    · exact accounted_nothing.andThen hrest
    · exact hm.andThen hrest

end

theorem accounted_reportPanic (members : List (Subscriber B)) (place : List Nat) (i : Nat)
    (m : Subscriber B) {o : Outcome B} (ho : Accounted o) (serial : UInt64) :
    Accounted (reportPanic members place i m o serial).1 :=
  ho.caught m fun p => accounted_relayAll (panicReport serial m p) place (some i) 0 members

mutual

theorem accounted_announce (e : Event) (place : List Nat) :
    ∀ (s : Subscriber B) (serial : UInt64), Accounted (announce e place s serial).1
  | .listener l, serial => by
    rw [announce]
    exact accounted_hear place e l
  | .set members, serial => by
    rw [announce]
    exact accounted_announceAll e place members 0 members serial

theorem accounted_announceAll (e : Event) (place : List Nat) (all : List (Subscriber B))
    (i : Nat) : ∀ (ms : List (Subscriber B)) (serial : UInt64),
      Accounted (announceAll e place all i ms serial).1
  | [], _ => accounted_nothing
  | m :: ms, serial => by
    have hm : Accounted (handOver e place all i m serial).1 :=
      accounted_reportPanic all place i m (accounted_announce e (i :: place) m serial) _
    rw [announceAll_cons]
    split
    · exact hm
    · exact hm.andThen (accounted_announceAll e place all (i + 1) ms _)

end

theorem accounted_deliver (e : Event) (s : Subscriber B) (serial : UInt64) :
    Accounted (deliver e s serial).1 := by
  rw [deliver]
  split
  · exact accounted_relay e [] s
  · exact accounted_announce e [] s serial

end Runs

/-! ## Counting episodes -/

/-- There is one stop for each panic of a listener. -/
def Balanced (ds : List (Delivery B)) : Prop := ds.countP (·.isPanic) = ds.countP (·.isStop)

theorem Balanced.append {xs ys : List (Delivery B)} (hxs : Balanced xs) (hys : Balanced ys) :
    Balanced (xs ++ ys) := by
  rw [Balanced, List.countP_append, List.countP_append, hxs, hys]

theorem balanced_hears (e : Event) (x : Seat B) : Balanced (x.hears e) := by
  cases hp : x.listener.reaction e <;>
    simp [Balanced, Seat.hears, Seat.stops, Delivery.isPanic, Delivery.isStop, hp]

theorem balanced_flatMap_hears (e : Event) (xs : List (Seat B)) :
    Balanced (xs.flatMap (·.hears e)) := by
  induction xs with
  | nil => rfl
  | cons x xs ih => exact (balanced_hears e x).append ih

theorem balanced_episodes (e : Event) (audience : List (Seat B)) (serial : UInt64)
    (xs : List (Seat B)) : Balanced (episodes e audience serial xs) := by
  induction xs generalizing serial with
  | nil => rfl
  | cons x xs ih =>
    have hreports : Balanced (x.reports e audience serial) := by
      rcases reports_cases e audience serial x with h | ⟨-, ys, r, -, h⟩
      · rw [h]
        rfl
      · rw [h]
        exact balanced_flatMap_hears r ys
    exact ((balanced_hears e x).append hreports).append (ih _)

/-- Where each panic was stopped once, none carried anything brittle. -/
theorem calm_of_accounted {ds : List (Delivery B)} (h : Accounted ⟨ds, none⟩)
    (hds : Balanced ds) : Calm ds := by
  rcases h with ⟨b, hb⟩ | h
  · cases hb
  · rw [Balanced] at hds
    have hnone : ds.countP (·.isBrittle) = 0 := by
      simp only [owed] at h
      omega
    intro d hd
    simpa using List.countP_eq_zero.mp hnone d hd

/-! ## Isolation -/

variable [Brittle B]

/-- A member that panics with what is brittle is the last one to be handed the event: those beside
it hear the report, and then the panic goes on that comes of throwing away what it carried. -/
theorem deliver_broken_off {e : Event} (he : e.isPanicReport = false) {l : Listener B} {b : B}
    (hl : l.reaction e = some (.brittle b)) (front back : List (Subscriber B)) (serial : UInt64) :
    let audience := seats [] (.set (front ++ .listener l :: back))
    let handed := seatsAll [] 0 front
    let x : Seat B := ⟨[front.length], l⟩
    Calm (episodes e audience serial handed ++
        x.reports e audience (serialAfter e serial handed)) →
      deliver e (.set (front ++ .listener l :: back)) serial =
        (⟨episodes e audience serial (handed ++ [x]), some (.unwinding (Brittle.left b))⟩,
          serialAfter e serial (handed ++ [x])) := by
  intro audience handed x hcalm
  obtain ⟨hfront, hreports⟩ := calm_append.mp hcalm
  have haudience := filter_under_root (front ++ .listener l :: back)
  have hleaves : l.leaves e = some (.unwinding (Brittle.left b)) := by
    rw [Listener.leaves, hl]
    rfl
  have hx := handOver_listener he haudience front.length l (serialAfter e serial handed) hreports
  rw [hleaves] at hx
  have hall := announceAll_append he haudience [] _ rfl serial hfront
    (announceAll_cons_of_some hx)
  rw [deliver, if_neg (by simp [he]), announce, episodes_append, serialAfter_append]
  exact hall

/-- Under a set no two listeners stand in the same place. When it is handed an event, the listeners
are to be handed it one after another, each once; each panic over an event that is no report is to
make one report, with the next number, which those beside the listener hear before anybody else is
handed the event; and nothing else is to happen. A set does just that, and lets no panic through,
if and only if nobody who is handed the event or a report on the way panics with what is brittle. -/
theorem deliver_set (e : Event) (members : List (Subscriber B)) (serial : UInt64) :
    let audience := seats [] (.set members)
    let told := episodes e audience serial audience
    (deliver e (.set members) serial =
        (⟨told, none⟩, serial + .ofNat (audience.countP (·.isReported e))) ↔ Calm told) ∧
    hearers e told = audience ∧ (audience.map (·.place)).Nodup := by
  intro audience told
  refine ⟨⟨fun h => ?_, deliver_of_calm e members serial⟩,
    hearers_episodes e audience serial audience, nodup_seats [] _⟩
  have haccounted := accounted_deliver e (.set members) serial
  rw [h] at haccounted
  exact calm_of_accounted haccounted (balanced_episodes e audience serial audience)

/-- Leaves another one of its kind when it is thrown away. -/
inductive Bomb where
  | bomb

instance : Brittle Bomb := ⟨.brittle⟩

/-- A member that panics with a bomb, and one behind it. -/
def mined : Subscriber Bomb :=
  .set [.faulty "mine" "mine" (· = .connectFailed) (.brittle .bomb), .recorder "log"]

/-- The recorder hears of the panic and nothing of what it was about. -/
example : (publish (.ofKind .connectFailed) mined 0).1.panic =
      some (.unwinding (.brittle .bomb)) ∧
    (publish (.ofKind .connectFailed) mined 0).1.deliveries.flatMap Delivery.notes =
      [.heard "mine" ⟨.ofKind .connectFailed, 0⟩, .line (.panicked "mine" "unknown panic"),
       .heard "log" ⟨.subscriberPanicked "mine" "unknown panic", 1⟩] := ⟨rfl, rfl⟩

end Reattempt.Audience
