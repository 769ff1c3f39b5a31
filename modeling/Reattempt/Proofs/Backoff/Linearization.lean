import Reattempt.Backoff.Contention
import Reattempt.Proofs.Backoff.Sequence

/-!
# A shared generator answers as a serial one

Whatever the schedule, the calls on a shared generator are answered as if each
had been made alone at the moment of the access that ends it. So no delay is
lost, none is handed out twice, and a call that begins later stands later in the
sequence. Nothing is assumed of the schedule: calls may stay pending for ever. But
a caller that is left alone gets its delays, with two accesses for each.
-/

namespace Reattempt.Backoff

/-- The delays drawn by calls that have ended, in the order in which they ended. -/
def drawn (rs : List Return) : List Duration := rs.filterMap Return.drawn?

def Return.delay : Return → Duration
  | .drew _ d | .peeked _ d => d

/-- What a generator answers to calls that are made one after another. -/
inductive Serial : Fibonacci → List Return → Fibonacci → Prop where
  | nil {g : Fibonacci} : Serial g [] g
  | drew {g g' : Fibonacci} {i : Nat} {rs : List Return} (h : Serial g.next.2 rs g') :
      Serial g (.drew i g.next.1 :: rs) g'
  | peeked {g g' : Fibonacci} {i : Nat} {rs : List Return} (h : Serial g rs g') :
      Serial g (.peeked i g.peek :: rs) g'

namespace Serial

variable {p : Policy} {n : Nat} {g g₁ g' : Fibonacci} {rs rs' : List Return} {r : Return}

theorem append (h : Serial g rs g₁) (h' : Serial g₁ rs' g') : Serial g (rs ++ rs') g' := by
  induction h with
  | nil => exact h'
  | drew _ ih => exact .drew (ih h')
  | peeked _ ih => exact .peeked (ih h')

theorem of_append (h : Serial g (rs ++ rs') g') : ∃ g₁, Serial g rs g₁ ∧ Serial g₁ rs' g' := by
  induction rs generalizing g with
  | nil => exact ⟨g, .nil, h⟩
  | cons r rs ih =>
    cases h with
    | drew h =>
      obtain ⟨g₁, hl, hr⟩ := ih h
      exact ⟨g₁, .drew hl, hr⟩
    | peeked h =>
      obtain ⟨g₁, hl, hr⟩ := ih h
      exact ⟨g₁, .peeked hl, hr⟩

/-- Peeks between them leave the draws what they are. -/
theorem draws_eq (h : Serial g rs g') {rolls : List Rolls} (hl : rolls.length = (drawn rs).length) :
    Fibonacci.source.draws rolls g = (drawn rs, g') := by
  induction h generalizing rolls with
  | nil =>
    obtain rfl := List.length_eq_zero_iff.mp hl
    rfl
  | @drew g _ _ _ _ ih =>
    obtain ⟨roll, rolls, rfl⟩ := List.exists_cons_of_length_eq_add_one hl
    have hnext : Fibonacci.source.next roll g = g.next := rfl
    rw [Source.draws_cons, hnext, ih (Nat.succ.inj hl)]
    rfl
  | peeked _ ih => exact ih hl

theorem stands (h : Serial g rs g') (hg : Fibonacci.Stands p n g) :
    Fibonacci.Stands p (n + (drawn rs).length) g' := by
  have hd := hg.draws (List.replicate (drawn rs).length fun _ => 0)
  rw [h.draws_eq List.length_replicate, List.length_replicate] at hd
  exact hd.2

/-- The answer of any call is the term that follows those drawn before it. -/
theorem toNanos_delay (h : Serial g (rs ++ r :: rs') g') (hg : Fibonacci.Stands p n g) :
    r.delay.toNanos = p.term (n + (drawn rs).length + 1) := by
  obtain ⟨g₁, hl, hr⟩ := h.of_append
  have hs := hl.stands hg
  cases hr with
  | drew => rw [Return.delay, Fibonacci.fst_next, hs.toNanos_peek]
  | peeked => rw [Return.delay, hs.toNanos_peek]

end Serial

namespace Contention

/-- What an atomic access can do. -/
inductive Effect (c : Contention) : Access → Contention × Option Return → Prop where
  | ignore {a : Access} : Effect c a (c, none)
  | look {i : Nat} : Effect c (.peek i) (c, some (.peeked i c.generator.peek))
  /-- The caller has found a word that it will try to move on. -/
  | aim {a : Access} {i : Nat}
      (hs : c.generator.isSaturated (c.generator.termAt c.generator.step) = false) :
      Effect c a (c.setCaller i (.drawing c.generator.step), none)
  | cap {a : Access} {i : Nat}
      (hs : c.generator.isSaturated (c.generator.termAt c.generator.step) = true) :
      Effect c a (c.setCaller i .idle, some (.drew i c.generator.ceiling))
  | move {i : Nat} (hi : c.callers[i]? = some (.drawing c.generator.step)) :
      Effect c (.swap i false)
        ({ c with generator := { c.generator with step := c.generator.step + 1 } }.setCaller i .idle,
          some (.drew i (.ofNanos (c.generator.termAt c.generator.step))))

theorem effect_observe (c : Contention) (a : Access) (i : Nat) :
    Effect c a (c.observe i c.generator.step) := by
  cases hs : c.generator.isSaturated (c.generator.termAt c.generator.step) with
  | true =>
    rw [observe, if_pos hs]
    exact .cap hs
  | false =>
    rw [observe, if_neg (Bool.eq_false_iff.mp hs)]
    exact .aim hs

theorem effect_access (c : Contention) (a : Access) : Effect c a (c.access a) := by
  cases a with
  | load i =>
    rw [access]
    split
    · exact effect_observe c _ i
    · exact .ignore
  | peek i =>
    rw [access]
    split
    · exact .look
    · exact .ignore
  | swap i spurious =>
    rw [access]
    split
    · rename_i observed hi
      by_cases hm : (c.generator.step = observed && !spurious) = true
      · rw [if_pos hm]
        obtain ⟨rfl, hf⟩ : c.generator.step = observed ∧ spurious = false := by simpa using hm
        subst hf
        exact .move hi
      · rw [if_neg hm]
        exact effect_observe c _ i
    · exact .ignore

/-- A caller that is about to move the word on has read it where the ceiling was not reached. -/
def Aimed (c : Contention) : Prop :=
  ∀ (i : Nat) (observed : UInt32), c.callers[i]? = some (.drawing observed) →
    c.generator.isSaturated (c.generator.termAt observed) = false

theorem aimed_start (g : Fibonacci) (callers : Nat) : Aimed (start g callers) := by
  intro i observed hi
  have hmem := List.mem_of_getElem? hi
  cases List.eq_of_mem_replicate hmem

theorem Aimed.setCaller {c : Contention} (hc : Aimed c) (i : Nat) {caller : Caller}
    (h : ∀ observed, caller = .drawing observed →
      c.generator.isSaturated (c.generator.termAt observed) = false) :
    Aimed (c.setCaller i caller) := by
  intro j observed hj
  have hset : (c.callers.set i caller)[j]? = some (.drawing observed) := hj
  by_cases hij : i = j
  · subst hij
    by_cases hlt : i < c.callers.length
    · rw [List.getElem?_set_self hlt] at hset
      exact h observed (Option.some.inj hset)
    · rw [List.getElem?_eq_none (by simpa using hlt)] at hset
      cases hset
  · rw [List.getElem?_set_ne hij] at hset
    exact hc j observed hset

theorem Aimed.setIdle {c : Contention} (hc : Aimed c) (i : Nat) : Aimed (c.setCaller i .idle) := by
  refine hc.setCaller i ?_
  intro _ h
  cases h

/-- An access that ends a call answers as the generator does by itself at that moment; one that
ends none leaves the generator as it is. -/
theorem serial_access {c : Contention} (hc : Aimed c) (a : Access) :
    Serial c.generator (c.access a).2.toList (c.access a).1.generator ∧
      Aimed (c.access a).1 := by
  have he := effect_access c a
  generalize c.access a = q at he
  cases he with
  | ignore => exact ⟨.nil, hc⟩
  | look => exact ⟨.peeked .nil, hc⟩
  | aim hs =>
    refine ⟨.nil, hc.setCaller _ ?_⟩
    rintro _ ⟨⟩
    exact hs
  | @cap _ i hs =>
    have hnext : c.generator.next = (c.generator.ceiling, c.generator) := by
      rw [Fibonacci.next, if_pos hs]
    have hd := Serial.drew (i := i) (Serial.nil (g := c.generator.next.2))
    rw [hnext] at hd
    exact ⟨hd, hc.setIdle _⟩
  | @move i hi =>
    -- the word is still what the caller has read, so the generator by itself would move too
    have hnext : c.generator.next = (.ofNanos (c.generator.termAt c.generator.step),
        { c.generator with step := c.generator.step + 1 }) := by
      rw [Fibonacci.next, if_neg (Bool.eq_false_iff.mp (hc i _ hi))]
    have hd := Serial.drew (i := i) (Serial.nil (g := c.generator.next.2))
    rw [hnext] at hd
    refine ⟨hd, Aimed.setIdle ?_ i⟩
    exact hc

theorem serial_run {c : Contention} (hc : Aimed c) (as : List Access) :
    Serial c.generator (c.run as).2 (c.run as).1.generator ∧ Aimed (c.run as).1 := by
  induction as generalizing c with
  | nil => exact ⟨.nil, hc⟩
  | cons a as ih =>
    obtain ⟨ha, hc'⟩ := serial_access hc a
    obtain ⟨hs, hr⟩ := ih hc'
    exact ⟨ha.append hs, hr⟩

/-- The accesses of a caller that makes some draws while nobody comes between. -/
def alone (i : Nat) : Nat → List Access
  | 0 => []
  | n + 1 => .load i :: .swap i false :: alone i n

/-- After the load the word is still what the caller has read, or there was nothing to move on. -/
theorem access_alone {c : Contention} {i : Nat} (hi : c.callers[i]? = some .idle) :
    ∃ d, (c.access (.load i)).2.toList ++ ((c.access (.load i)).1.access (.swap i false)).2.toList =
        [.drew i d] ∧
      ((c.access (.load i)).1.access (.swap i false)).1.callers[i]? = some .idle := by
  obtain ⟨hlt, -⟩ := List.getElem?_eq_some_iff.mp hi
  have hload : c.access (.load i) = c.observe i c.generator.step := by simp only [access, hi]
  rw [hload, observe]
  cases hs : c.generator.isSaturated (c.generator.termAt c.generator.step) with
  | true =>
    exact ⟨c.generator.ceiling, by simp [access, setCaller, hlt]⟩
  | false =>
    exact ⟨.ofNanos (c.generator.termAt c.generator.step), by simp [access, setCaller, hlt]⟩

/-- A caller that is left alone is answered each draw. -/
theorem run_alone {c : Contention} {i : Nat} (hi : c.callers[i]? = some .idle) (n : Nat) :
    ∃ ds : List Duration, ds.length = n ∧ (c.run (alone i n)).2 = ds.map (.drew i) := by
  induction n generalizing c with
  | zero => exact ⟨[], rfl, rfl⟩
  | succ n ih =>
    obtain ⟨d, hd, hidle⟩ := access_alone hi
    obtain ⟨ds, hlength, hds⟩ := ih hidle
    refine ⟨d :: ds, congrArg (· + 1) hlength, ?_⟩
    simp only [alone, run, hds]
    rw [← List.append_assoc, hd]
    rfl

theorem access_peek_of_idle {c : Contention} {i : Nat} (hi : c.callers[i]? = some .idle) :
    c.access (.peek i) = (c, some (.peeked i c.generator.peek)) := by
  simp only [access, hi]

end Contention

/-- What a new generator of `p` has answered after `n` draws that were made one after another. -/
def Policy.serial (p : Policy) (n : Nat) : List Duration × Fibonacci :=
  Fibonacci.source.draws (List.replicate n fun _ => 0) (.ofPolicy p)

/-- A delay that is as long as an earlier one is the ceiling, or it is the second one. -/
theorem Policy.eq_of_term_eq {p : Policy} {j m : Nat} (hj : 1 ≤ j) (hlt : j < m)
    (h : p.term j = p.term m) : p.term m = p.ceilingNanos ∨ j = 1 ∧ m = 2 := by
  by_cases hc : p.term m < p.ceilingNanos
  · right
    by_cases hm : m = 2
    · exact ⟨by omega, hm⟩
    · -- from the second term on they grow, and the one before `m` is not below that at `j`
      have hstep : p.term (m - 1) < p.term m := by
        have hle := p.term_mono (Nat.sub_le m 1)
        exact Policy.term_lt_term (by omega) (by omega) (by omega)
      have hle := p.term_mono (show j ≤ m - 1 by omega)
      omega
  · exact .inl (Nat.le_antisymm (p.term_le_ceilingNanos m) (by omega))

/-- After any schedule the calls that have ended were answered in the order of their ends as by
a generator that nobody shares: the delays drawn are the first ones of the sequence, each once,
looking ahead shows the next one, and whatever ends later, so also any call that begins later,
is answered with a later term, which is as long as an earlier one only if it is the ceiling or
the second of all. -/
theorem run_linearizable (p : Policy) (callers : Nat) (as : List Access) :
    let c := ((Contention.start (.ofPolicy p) callers).run as).1
    let ended := ((Contention.start (.ofPolicy p) callers).run as).2
    let k := (drawn ended).length
    Serial (.ofPolicy p) ended c.generator ∧
      drawn ended = (p.serial k).1 ∧
      (∀ i : Nat, c.callers[i]? = some .idle →
        c.access (.peek i) = (c, some (.peeked i (p.serial k).2.peek))) ∧
      ∀ later front r back, (c.run later).2 = front ++ r :: back →
        let m := k + (drawn front).length + 1
        r.delay.toNanos = p.term m ∧
          ∀ j, 1 ≤ j → j ≤ k → p.term j = p.term m →
            p.term m = p.ceilingNanos ∨ j = 1 ∧ m = 2 := by
  intro c ended k
  obtain ⟨hs, hc⟩ := Contention.serial_run (Contention.aimed_start (.ofPolicy p) callers) as
  have hserial : p.serial k = (drawn ended, c.generator) := hs.draws_eq List.length_replicate
  have hstands : Fibonacci.Stands p k c.generator := by
    have h := hs.stands (Fibonacci.stands_ofPolicy p)
    rwa [Nat.zero_add] at h
  refine ⟨hs, by rw [hserial], fun i hi => ?_, fun later front r back hr => ?_⟩
  · rw [Contention.access_peek_of_idle hi, hserial]
  · have hl := (Contention.serial_run hc later).1
    rw [hr] at hl
    refine ⟨hl.toNanos_delay hstands, fun j hj hjk heq => ?_⟩
    exact Policy.eq_of_term_eq hj (by omega) heq

/-- Two callers in turns: the one that comes second in a pass has to try again, and all draws are
answered, from the fourth one on with the ceiling. -/
example : ((Contention.start (.ofPolicy ⟨.ofMillis 100, .ofMillis 300⟩) 2).run
      (Contention.inTurns 2 3)).2 =
    [.drew 0 (.ofMillis 100), .drew 1 (.ofMillis 100), .drew 0 (.ofMillis 200),
     .drew 1 (.ofMillis 300), .drew 0 (.ofMillis 300), .drew 1 (.ofMillis 300)] := by
  decide +kernel

end Reattempt.Backoff
