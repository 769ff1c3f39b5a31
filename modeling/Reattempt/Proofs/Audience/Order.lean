import Reattempt.Proofs.Audience.FanOut

/-!
# The order in which a listener hears events

Events go to a set in the order of their numbers. Each listener under it hears every one
of them once and in that order, and the reports of panics, which are numbered while an event
is handed out, in the order of their numbers. Between the two the order is that of the fan-out:
who panics over an event before a listener has heard it is reported to that listener
first, under the later number.
-/

namespace Reattempt.Audience

/-- The numbers go up. -/
def InOrder (es : List Event) : Prop := es.Pairwise fun a b => a.seq < b.seq

instance (es : List Event) : Decidable (InOrder es) :=
  inferInstanceAs (Decidable (es.Pairwise fun a b => a.seq < b.seq))

/-- The numbers go up from `a` on, below `b`. -/
structure Ascends (a b : UInt64) (es : List Event) : Prop where
  le : a ≤ b
  inOrder : InOrder es
  bounds : ∀ e ∈ es, a ≤ e.seq ∧ e.seq < b

namespace Ascends

variable {a b c : UInt64} {es fs : List Event}

theorem nil (h : a ≤ b) : Ascends a b [] :=
  ⟨h, List.Pairwise.nil, fun _ he => nomatch he⟩

theorem singleton {e : Event} (ha : a ≤ e.seq) (hb : e.seq < b) : Ascends a b [e] where
  le := UInt64.le_trans ha (UInt64.le_of_lt hb)
  inOrder := List.pairwise_singleton _ _
  bounds := fun f hf => by
    obtain rfl := List.mem_singleton.mp hf
    exact ⟨ha, hb⟩

theorem append (h : Ascends a b es) (k : Ascends b c fs) : Ascends a c (es ++ fs) where
  le := UInt64.le_trans h.le k.le
  inOrder := List.pairwise_append.mpr ⟨h.inOrder, k.inOrder, fun e he f hf =>
    UInt64.lt_of_lt_of_le (h.bounds e he).2 (k.bounds f hf).1⟩
  bounds := fun e he => by
    rcases List.mem_append.mp he with he | he
    · obtain ⟨ha, hb⟩ := h.bounds e he
      exact ⟨ha, UInt64.lt_of_lt_of_le hb k.le⟩
    · obtain ⟨hb, hc⟩ := k.bounds e he
      exact ⟨UInt64.le_trans h.le hb, hc⟩

end Ascends

/-! ## One event -/

/-- What the listener at a place hears, in order. -/
def heardAt (place : List Nat) (ds : List Delivery) : List Event :=
  ds.filterMap fun
    | .received p _ e => if p = place then some e else none
    | .stopped .. => none

/-- The report, if a listener panics over an event. -/
def Seat.report? (y : Seat) (e : Event) (serial : UInt64) : Option Event :=
  if e.isPanicReport then none else (y.listener.reaction e).map (y.report · serial)

/-- The reports that `x` hears while some are handed an event. -/
def reportsTo (x : Seat) (e : Event) : UInt64 → List Seat → List Event
  | _, [] => []
  | serial, y :: ys =>
    (if y.Beside x then (y.report? e serial).toList else []) ++
      reportsTo x e (serialAfter e serial [y]) ys

theorem Seat.not_beside_self (x : Seat) : ¬ x.Beside x :=
  fun h => h.2 (List.suffix_refl x.place)

theorem Seat.isSome_report? (y : Seat) (e : Event) (serial : UInt64) :
    (y.report? e serial).isSome = y.isReported e := by
  cases he : e.isPanicReport <;> simp [report?, isReported, he]

theorem Seat.seq_of_mem_report? {y : Seat} {e r : Event} {serial : UInt64}
    (hr : r ∈ (y.report? e serial).toList) : r.seq = serial ∧ y.isReported e = true := by
  rw [Option.mem_toList] at hr
  have hreported : y.isReported e = true := by rw [← y.isSome_report? e serial, hr, Option.isSome]
  rw [report?] at hr
  split at hr
  · cases hr
  · obtain ⟨p, -, rfl⟩ := Option.map_eq_some_iff.mp hr
    exact ⟨rfl, hreported⟩

/-- What comes after a panic is that those beside it hear of it. -/
theorem Seat.reports_eq (e : Event) (audience : List Seat) (serial : UInt64) (y : Seat) :
    y.reports e audience serial =
      (y.report? e serial).toList.flatMap fun r =>
        (audience.filter (y.Beside ·)).flatMap (hears r) := by
  cases hp : y.listener.reaction e with
  | none => simp [reports, report?, hp]
  | some p => cases he : e.isPanicReport <;> simp [reports, report?, hp, he]

theorem heardAt_append (place : List Nat) (xs ys : List Delivery) :
    heardAt place (xs ++ ys) = heardAt place xs ++ heardAt place ys := List.filterMap_append

theorem heardAt_hears (place : List Nat) (e : Event) (y : Seat) :
    heardAt place (y.hears e) = if y.place = place then [e] else [] := by
  have hstopped : heardAt place (y.stops e) = [] := by
    rw [Seat.stops]
    cases y.listener.reaction e <;> rfl
  have hsplit : heardAt place (y.hears e) =
      (if y.place = place then [e] else []) ++ heardAt place (y.stops e) := by
    by_cases hy : y.place = place <;> simp [heardAt, Seat.hears, hy]
  rw [hsplit, hstopped, List.append_nil]

/-- Where some hear an event, it is heard as often as one of them stands there. -/
theorem heardAt_flatMap_hears (place : List Nat) (e : Event) (ys : List Seat) :
    heardAt place (ys.flatMap (Seat.hears e)) = (ys.filter (·.place = place)).map fun _ => e := by
  induction ys with
  | nil => rfl
  | cons y ys ih =>
    rw [List.flatMap_cons, heardAt_append, heardAt_hears, ih]
    by_cases hy : y.place = place <;> simp [hy]

section Listening

variable {audience : List Seat} {x : Seat} (hx : audience.filter (·.place = x.place) = [x])

include hx

/-- Of those beside a listener everybody hears its report, and of the others nobody. -/
theorem heardAt_reports (e : Event) (serial : UInt64) (y : Seat) :
    heardAt x.place (y.reports e audience serial) =
      if y.Beside x then (y.report? e serial).toList else [] := by
  have hbeside : (audience.filter (y.Beside ·)).filter (·.place = x.place) =
      if y.Beside x then [x] else [] := by
    rw [List.filter_comm, hx, List.filter_singleton]
    by_cases hy : y.Beside x <;> simp [hy]
  rw [Seat.reports_eq]
  cases y.report? e serial with
  | none => simp [heardAt]
  | some r =>
    rw [Option.toList_some, List.flatMap_singleton, heardAt_flatMap_hears, hbeside]
    by_cases hy : y.Beside x <;> simp [hy]

/-- While others are handed an event, a listener hears their reports alone. -/
theorem heardAt_episodes (e : Event) {ys : List Seat} (hys : ∀ y ∈ ys, y.place ≠ x.place)
    (serial : UInt64) : heardAt x.place (episodes e audience serial ys) =
      reportsTo x e serial ys := by
  induction ys generalizing serial with
  | nil => rfl
  | cons y ys ih =>
    obtain ⟨hy, hys⟩ := List.forall_mem_cons.mp hys
    rw [episodes, heardAt_append, heardAt_append, heardAt_hears, if_neg hy, heardAt_reports hx,
      ih hys, reportsTo]
    rfl

end Listening

/-- A listener hears an event once: after the reports on those who were handed it earlier, and
before the reports on the others. -/
theorem heardAt_deliver (e : Event) (serial : UInt64) {members : List Subscriber}
    {front back : List Seat} {x : Seat} (hx : seats [] (.set members) = front ++ x :: back) :
    heardAt x.place (deliver e (.set members) serial).1.deliveries =
      reportsTo x e serial front ++
        e :: reportsTo x e (serialAfter e serial (front ++ [x])) back := by
  have hnodup := nodup_seats [] (.set members)
  have halone : (seats [] (.set members)).filter (·.place = x.place) = [x] :=
    filter_place hnodup (hx ▸ List.mem_append_right front List.mem_cons_self)
  rw [hx, List.map_append, List.map_cons, List.nodup_append] at hnodup
  obtain ⟨-, hback, hfront⟩ := hnodup
  have hplaces {y : Seat} (hy : y ∈ front) : y.place ≠ x.place :=
    hfront _ (List.mem_map_of_mem hy) _ List.mem_cons_self
  have hplaces' {y : Seat} (hy : y ∈ back) : y.place ≠ x.place := fun h =>
    (List.nodup_cons.mp hback).1 (h ▸ List.mem_map_of_mem hy)
  have hself :
      heardAt x.place (x.reports e (seats [] (.set members)) (serialAfter e serial front)) = [] := by
    rw [heardAt_reports halone, if_neg x.not_beside_self]
  have hepisodes : (deliver e (.set members) serial).1.deliveries =
      episodes e (seats [] (.set members)) serial (front ++ x :: back) :=
    (congrArg (·.1.deliveries) (deliver_eq_episodes e members serial)).trans
      (congrArg (episodes e (seats [] (.set members)) serial) hx)
  rw [hepisodes, episodes_append, episodes, heardAt_append, heardAt_append, heardAt_append, hself,
    heardAt_hears, if_pos rfl, heardAt_episodes halone e (fun _ => hplaces),
    heardAt_episodes halone e (fun _ => hplaces'), ← serialAfter_append]
  rfl

/-! ## Numbers of reports -/

theorem serialAfter_toNat (e : Event) (serial : UInt64) (ys : List Seat)
    (h : serial.toNat + ys.countP (·.isReported e) < UInt64.size) :
    (serialAfter e serial ys).toNat = serial.toNat + ys.countP (·.isReported e) := by
  rw [serialAfter, UInt64.toNat_add, UInt64.toNat_ofNat_of_lt' (by omega)]
  exact Nat.mod_eq_of_lt h

/-- The reports have the numbers given out meanwhile, in order. -/
theorem ascends_reportsTo (x : Seat) (e : Event) (serial : UInt64) (ys : List Seat)
    (h : serial.toNat + ys.countP (·.isReported e) < UInt64.size) :
    Ascends serial (serialAfter e serial ys) (reportsTo x e serial ys) := by
  induction ys generalizing serial with
  | nil => exact .nil (UInt64.le_of_eq (UInt64.add_zero serial).symm)
  | cons y ys ih =>
    have hcount : (y :: ys).countP (·.isReported e) =
        [y].countP (·.isReported e) + ys.countP (·.isReported e) := by
      rw [← List.countP_append, List.singleton_append]
    rw [hcount] at h
    have hnext := serialAfter_toNat e serial [y] (by omega)
    have hle : serial ≤ serialAfter e serial [y] := by
      rw [UInt64.le_iff_toNat_le]
      omega
    have hrest := ih (serialAfter e serial [y]) (by omega)
    rw [← serialAfter_append] at hrest
    refine Ascends.append ?_ hrest
    by_cases hy : y.Beside x
    · rw [if_pos hy]
      cases hr : y.report? e serial with
      | none => exact .nil hle
      | some r =>
        obtain ⟨hseq, hreported⟩ := Seat.seq_of_mem_report? (Option.mem_toList.mpr hr)
        have hone : [y].countP (·.isReported e) = 1 := by simp [hreported]
        refine .singleton (UInt64.le_of_eq hseq.symm) ?_
        rw [hseq, UInt64.lt_iff_toNat_lt]
        omega
    · rw [if_neg hy]
      exact .nil hle

/-- A listener hears no report just if nobody beside it panics. -/
theorem reportsTo_eq_nil_iff (x : Seat) (e : Event) (serial : UInt64) (ys : List Seat) :
    reportsTo x e serial ys = [] ↔ ∀ y ∈ ys, y.Beside x → y.isReported e = false := by
  induction ys generalizing serial with
  | nil => simp [reportsTo]
  | cons y ys ih =>
    have hreport : (y.report? e serial).toList = [] ↔ y.isReported e = false := by
      rw [← y.isSome_report? e serial]
      cases y.report? e serial <;> simp
    rw [reportsTo, List.append_eq_nil_iff, ih, List.forall_mem_cons]
    refine and_congr_left fun _ => ?_
    by_cases hy : y.Beside x <;> simp [hy, hreport]

/-! ## Event after event -/

/-- An event about to be handed out, with the number of the next report. -/
structure Handout where
  event : Event
  serial : UInt64

namespace Handout

/-- The reports that `x` hears before the event: those on who is in front of it. -/
def before (h : Handout) (front : List Seat) (x : Seat) : List Event :=
  reportsTo x h.event h.serial front

/-- The reports that `x` hears after the event: those on who is behind it. -/
def after (h : Handout) (front : List Seat) (x : Seat) (back : List Seat) : List Event :=
  reportsTo x h.event (serialAfter h.event h.serial (front ++ [x])) back

end Handout

/-- All that happens when events are handed to a set one after another. -/
def handOut (members : List Subscriber) (l : List Handout) : List Delivery :=
  l.flatMap fun h => (deliver h.event (.set members) h.serial).1.deliveries

/-- Events are handed to a set in the order of their numbers, and no number is given out twice. -/
structure Issued (members : List Subscriber) (l : List Handout) : Prop where
  inOrder : InOrder (l.map (·.event))
  numbered : ∀ h ∈ l, h.event.seq < h.serial
  renewed : l.Pairwise fun h h' => (deliver h.event (.set members) h.serial).2 ≤ h'.serial
  inRange : ∀ h ∈ l,
    h.serial.toNat + (seats [] (.set members)).countP (·.isReported h.event) < UInt64.size

/-- Where everything that is heard of one event comes before everything that is heard of a
later one, the whole is in order. -/
theorem inOrder_flatMap {f : Handout → List Event} {l : List Handout} :
    InOrder (l.flatMap f) ↔
      (∀ h ∈ l, InOrder (f h)) ∧
        l.Pairwise fun h h' => ∀ a ∈ f h, ∀ b ∈ f h', a.seq < b.seq := List.pairwise_flatMap

section Issuing

variable {members : List Subscriber} {l : List Handout} (hl : Issued members l)
  {front back : List Seat} {x : Seat} (hx : seats [] (.set members) = front ++ x :: back)

include hl hx

/-- The reports before an event and those after it have the numbers given out meanwhile. -/
theorem Issued.ascends {h : Handout} (hh : h ∈ l) :
    Ascends h.serial (serialAfter h.event h.serial (front ++ [x])) (h.before front x) ∧
      Ascends (serialAfter h.event h.serial (front ++ [x]))
        (deliver h.event (.set members) h.serial).2 (h.after front x back) := by
  have hrange := hl.inRange h hh
  rw [hx, ← List.singleton_append, ← List.append_assoc, List.countP_append, List.countP_append]
    at hrange
  have hnext := serialAfter_toNat h.event h.serial front (by omega)
  have hlater := serialAfter_toNat h.event h.serial (front ++ [x])
    (by rw [List.countP_append]; omega)
  rw [List.countP_append] at hlater
  have hfront := ascends_reportsTo x h.event h.serial front (by omega)
  have hself := ascends_reportsTo x h.event (serialAfter h.event h.serial front) [x] (by omega)
  have hback := ascends_reportsTo x h.event (serialAfter h.event h.serial (front ++ [x])) back
    (by omega)
  rw [← serialAfter_append] at hself hback
  rw [List.append_assoc, List.singleton_append, ← hx] at hback
  have hlast : (deliver h.event (.set members) h.serial).2 =
      serialAfter h.event h.serial (seats [] (.set members)) :=
    congrArg (·.2) (deliver_eq_episodes h.event members h.serial)
  rw [hlast]
  refine ⟨?_, hback⟩
  exact List.append_nil (h.before front x) ▸ hfront.append (.nil hself.le)

/-- The reports of one event. -/
theorem Issued.ascends_reports {h : Handout} (hh : h ∈ l) :
    Ascends h.serial (deliver h.event (.set members) h.serial).2
      (h.before front x ++ h.after front x back) :=
  (hl.ascends hx hh).1.append (hl.ascends hx hh).2

/-- The event comes before all reports that are heard of it. -/
theorem Issued.lt_of_mem_reports {h : Handout} (hh : h ∈ l) {r : Event}
    (hr : r ∈ h.before front x ++ h.after front x back) : h.event.seq < r.seq :=
  UInt64.lt_of_lt_of_le (hl.numbered h hh) ((hl.ascends_reports hx hh).bounds r hr).1

/-- The reports that a listener hears over a run are in order. -/
theorem Issued.inOrder_reports :
    InOrder (l.flatMap fun h => h.before front x ++ h.after front x back) := by
  refine inOrder_flatMap.mpr ⟨fun h hh => (hl.ascends_reports hx hh).inOrder, ?_⟩
  refine hl.renewed.imp_of_mem fun {h h'} hh hh' hle r hr r' hr' => ?_
  have hlt := ((hl.ascends_reports hx hh).bounds r hr).2
  have hge := ((hl.ascends_reports hx hh').bounds r' hr').1
  exact UInt64.lt_of_lt_of_le hlt (UInt64.le_trans hle hge)

/-- What is heard of one event is in order just if no report comes before the event. -/
theorem Issued.inOrder_episode_iff {h : Handout} (hh : h ∈ l) :
    InOrder (h.before front x ++ h.event :: h.after front x back) ↔ h.before front x = [] := by
  constructor
  · intro horder
    refine List.eq_nil_iff_forall_not_mem.mpr fun r hr => ?_
    have hbefore := (List.pairwise_append.mp horder).2.2 r hr _ List.mem_cons_self
    exact UInt64.lt_asymm hbefore (hl.lt_of_mem_reports hx hh (List.mem_append_left _ hr))
  · intro hnil
    rw [hnil, List.nil_append]
    exact List.pairwise_cons.mpr
      ⟨fun r hr => hl.lt_of_mem_reports hx hh (List.mem_append_right _ hr),
        (hl.ascends hx hh).2.inOrder⟩

/-- An event and the reports after it come before the next such ones just if no report
outnumbers a later event. -/
theorem Issued.inOrder_across_iff :
    (l.Pairwise fun h h' => ∀ a ∈ h.event :: h.after front x back,
      ∀ b ∈ h'.event :: h'.after front x back, a.seq < b.seq) ↔
      l.Pairwise fun h h' => ∀ r ∈ h.after front x back, r.seq < h'.event.seq := by
  constructor
  · exact fun hacross => hacross.imp fun hab r hr => hab r (.tail _ hr) _ List.mem_cons_self
  · intro hlater
    have hevents := List.pairwise_map.mp hl.inOrder
    refine (hlater.and hevents).imp_of_mem fun {h h'} _ hh' hboth a ha b hb => ?_
    have ha : a.seq < h'.event.seq := by
      rcases List.mem_cons.mp ha with rfl | ha
      · exact hboth.2
      · exact hboth.1 a ha
    rcases List.mem_cons.mp hb with rfl | hb
    · exact ha
    · exact UInt64.lt_trans ha (hl.lt_of_mem_reports hx hh' (List.mem_append_right _ hb))

end Issuing

/-- Over a run of events a listener hears each of them once: after the reports on those in front
of it, and before the reports on those behind it. The events are in order, and so are the reports.
Everything is in order just if nobody beside the listener and in front of it panics over any of
the events, and no report outnumbers a later event; which none does where each event is
numbered after the one before was handed out. -/
theorem heardAt_inOrder_iff {members : List Subscriber} {l : List Handout}
    (hl : Issued members l) {front back : List Seat} {x : Seat}
    (hx : seats [] (.set members) = front ++ x :: back) :
    let heard := heardAt x.place (handOut members l)
    let quiet := ∀ h ∈ l, ∀ y ∈ front, y.Beside x → y.isReported h.event = false
    heard = l.flatMap (fun h => h.before front x ++ h.event :: h.after front x back) ∧
    InOrder (l.map (·.event)) ∧
    InOrder (l.flatMap fun h => h.before front x ++ h.after front x back) ∧
    (InOrder heard ↔
      quiet ∧ l.Pairwise fun h h' => ∀ r ∈ h.after front x back, r.seq < h'.event.seq) ∧
    ((l.Pairwise fun h h' => (deliver h.event (.set members) h.serial).2 ≤ h'.event.seq) →
      (InOrder heard ↔ quiet)) := by
  intro heard quiet
  have hheard : heard =
      l.flatMap (fun h => h.before front x ++ h.event :: h.after front x back) := by
    have hrun : heard = l.flatMap fun h =>
        heardAt x.place (deliver h.event (.set members) h.serial).1.deliveries :=
      List.filterMap_flatMap
    rw [hrun]
    exact congrArg l.flatMap (funext fun h => heardAt_deliver h.event h.serial hx)
  have hquiet : quiet ↔ ∀ h ∈ l, h.before front x = [] :=
    forall₂_congr fun h _ => (reportsTo_eq_nil_iff x h.event h.serial front).symm
  have hiff : InOrder heard ↔
      quiet ∧ l.Pairwise fun h h' => ∀ r ∈ h.after front x back, r.seq < h'.event.seq := by
    rw [hheard, inOrder_flatMap, hquiet,
      forall₂_congr fun h hh => hl.inOrder_episode_iff hx (h := h) hh]
    refine and_congr_right fun hnil => ?_
    rw [← hl.inOrder_across_iff hx]
    refine List.Pairwise.iff_of_mem fun {h h'} hh hh' => ?_
    rw [hnil h hh, hnil h' hh', List.nil_append, List.nil_append]
  refine ⟨hheard, hl.inOrder, hl.inOrder_reports hx, hiff, fun hfresh => ?_⟩
  refine hiff.trans (and_iff_left (hfresh.imp_of_mem fun {h h'} hh _ hle r hr => ?_))
  exact UInt64.lt_of_lt_of_le ((hl.ascends hx hh).2.bounds r hr).2 hle

/-- A recorder between one who panics over failures and one who panics over success. -/
def crowded : List Subscriber :=
  [.set [.faulty "rash" "rash" (· = .connectFailed) (.text "boom"), .recorder "log"],
    .faulty "late" "late" (· = .connected) .other]

/-- A success, and then a failure, are handed out, each numbered after what came before. -/
def successThenFailure : List Handout :=
  [⟨{ Notice.ofKind .connected with seq := 0 }, 1⟩,
    ⟨{ Notice.ofKind .connectFailed with seq := 2 }, 3⟩]

/-- The recorder hears of the late panic after the success, and of the rash one before the
failure; who is late hears all in order. -/
theorem heardAt_inOrder_iff_crowded :
    Issued crowded successThenFailure ∧
    (heardAt [1, 0] (handOut crowded successThenFailure)).map (·.seq) = [0, 1, 3, 2] ∧
    ¬ InOrder (heardAt [1, 0] (handOut crowded successThenFailure)) ∧
    InOrder (heardAt [1] (handOut crowded successThenFailure)) := by
  have hl : Issued crowded successThenFailure :=
    ⟨by decide +kernel, by decide +kernel, by decide +kernel, by decide +kernel⟩
  have hfresh : successThenFailure.Pairwise fun h h' =>
      (deliver h.event (.set crowded) h.serial).2 ≤ h'.event.seq := by decide +kernel
  have hseats : seats [] (.set crowded) =
      (seats [] (.set crowded)).take 1 ++ _ :: (seats [] (.set crowded)).drop 2 := rfl
  have hseats' : seats [] (.set crowded) = (seats [] (.set crowded)).take 2 ++ [_] := rfl
  obtain ⟨hlog, -, -, -, hlogOrder⟩ := heardAt_inOrder_iff hl hseats
  obtain ⟨-, -, -, -, hlateOrder⟩ := heardAt_inOrder_iff hl hseats'
  refine ⟨hl, (congrArg (List.map (·.seq)) hlog).trans (by decide +kernel), ?_, ?_⟩
  · exact fun horder => absurd ((hlogOrder hfresh).mp horder) (by decide +kernel)
  · exact (hlateOrder hfresh).mpr (by decide +kernel)

/-- The report on who panics first is heard before the event, under the later number. -/
theorem heard_out_of_order :
    let members := [.faulty "boom" "boom" (fun _ => true) (.text "boom"), .recorder "log"]
    let l : List Handout := [⟨{ Notice.ofKind .connectFailed with seq := 0 }, 1⟩]
    Issued members l ∧ (heardAt [1] (handOut members l)).map (·.seq) = [1, 0] ∧
      ¬ InOrder (heardAt [1] (handOut members l)) := by
  exact ⟨⟨by decide +kernel, by decide +kernel, by decide +kernel, by decide +kernel⟩, rfl,
    by decide +kernel⟩

end Reattempt.Audience
