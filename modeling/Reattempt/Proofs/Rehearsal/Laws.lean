import Reattempt.Rehearsal.Job

/-!
# Laws of the rehearsal's world

Timers do not ring early, a token that is cancelled stays so whatever an attempt
does, and nothing that happens in the world moves its clock. These are what the
results on executors and campaigns ask of their surroundings.
-/

namespace Reattempt.Rehearsal.World

variable {α ε : Type}

theorem due_le_clock_of_wake {w v : World α ε} {due : Nat} (h : w.wake due = some v) :
    due ≤ v.clock := by
  have hd := (allowance_of_wake h).2
  unfold wake at h
  split at h
  · cases h
  · simp only [hd, if_true, Option.some.injEq] at h
    rw [← h]
    exact hd

theorem isCancelled_of_wake {w v : World α ε} {due : Nat} (h : w.wake due = some v) (i : Nat) :
    v.isCancelled i = w.isCancelled i := by
  have hd := (allowance_of_wake h).2
  unfold wake at h
  split at h
  · cases h
  · simp only [hd, if_true, Option.some.injEq] at h
    rw [← h]
    rfl

theorem hasOwnToken_update {w : World α ε} {i : Nat} {f : Actor α ε → Actor α ε}
    (hf : ∀ a, (f a).ownToken = a.ownToken) (j : Nat) :
    (w.update i f).hasOwnToken j = w.hasOwnToken j := by
  unfold update hasOwnToken
  by_cases h : i = j <;> simp [Array.getElem?_modify, h]
  cases w.actors[j]? <;> simp [hf]

theorem isCancelled_call (w : World α ε) (i j : Nat) (a : Actor α ε) (c : Bool) :
    (w.call i a c).2.isCancelled j = w.isCancelled j := by
  have ht := hasOwnToken_update (w := w) (i := i) (f := fun b =>
    { b with
      script := a.script.next.2
      calls := b.calls + 1
      flight := some ⟨a.script.next.1, w.clock⟩ }) (fun _ => rfl) j
  show (_ || _) = (_ || _)
  rw [← ht]
  rfl

theorem isCancelled_endWait {w v : World α ε} {f : Flight α ε} (h : w.endWait f = some v)
    (j : Nat) : v.isCancelled j = w.isCancelled j := by
  unfold endWait at h
  split at h
  · rw [Option.some.inj h]
  · obtain ⟨due, -, hw⟩ := Option.bind_eq_some_iff.mp h
    exact isCancelled_of_wake hw j

theorem isCancelled_cancel {w : World α ε} {j : Nat} (h : w.isCancelled j = true)
    (t : Option Nat) : (w.cancel t).isCancelled j = true := by
  cases t with
  | none => rfl
  | some i =>
    by_cases ht : w.hasOwnToken i = true
    · have hs : (w.root || w.hasOwnToken j && (i :: w.severed).contains j) = true := by
        simp only [isCancelled, Bool.or_eq_true, Bool.and_eq_true, List.contains_cons] at h ⊢
        exact h.imp_right fun h => ⟨h.1, Or.inr h.2⟩
      rw [cancel, if_pos ht]
      exact hs
    · rw [cancel, if_neg ht]
      rfl

theorem isCancelled_takeOff (w : World α ε) (i j : Nat) (a : Actor α ε) (c : Bool) :
    (w.takeOff i a c).2.isCancelled j = w.isCancelled j := by
  unfold takeOff
  split
  · rfl
  · exact isCancelled_call w i j a c

theorem isCancelled_land {w : World α ε} {j : Nat} (h : w.isCancelled j = true) (i : Nat)
    (f : Flight α ε) : (w.land i f).2.isCancelled j = true := by
  unfold land
  split
  · exact h
  · exact h
  · exact isCancelled_cancel h _

theorem isCancelled_goOn {w : World α ε} {j : Nat} (h : w.isCancelled j = true) (i : Nat)
    (who : String) (f : Flight α ε) (c : Bool) : (w.goOn i who f c).2.isCancelled j = true := by
  unfold goOn
  split
  · exact h
  · split
    · exact h
    · split
      · exact h
      · rename_i hw
        rw [← isCancelled_endWait hw] at h
        exact isCancelled_land h i f

/-- Cancellation lasts through whatever an attempt does. -/
theorem isCancelled_poll {w : World α ε} {j : Nat} (h : w.isCancelled j = true) (i : Nat)
    (c : Bool) : (w.poll i c).2.isCancelled j = true := by
  unfold poll
  split
  · exact h
  · rename_i a _
    rw [← isCancelled_takeOff w i j a c] at h
    exact isCancelled_goOn h i a.name _ c

theorem isCancelled_writeAll (w : World α ε) (es : List Entry) (j : Nat) :
    (w.writeAll es).isCancelled j = w.isCancelled j := by
  induction es generalizing w with
  | nil => rfl
  | cons e es ih => exact ih (w.write e)

/-- Whoever listens cancels nothing. -/
theorem isCancelled_publish (w : World α ε) (i j : Nat) (n : Notice) :
    (w.publish i n).isCancelled j = w.isCancelled j := by
  unfold publish
  split
  · rfl
  · exact isCancelled_writeAll w _ j

/-! ## The clock -/

theorem clock_wake {w v : World α ε} {due : Nat} (h : w.wake due = some v) :
    v.clock = w.clock := by
  have hd := (allowance_of_wake h).2
  unfold wake at h
  split at h
  · cases h
  · simp only [hd, if_true, Option.some.injEq] at h
    rw [← h]

theorem clock_cancel (w : World α ε) (t : Option Nat) : (w.cancel t).clock = w.clock := by
  cases t with
  | none => rfl
  | some i =>
    rw [cancel]
    split <;> rfl

theorem clock_endWait {w v : World α ε} {f : Flight α ε} (h : w.endWait f = some v) :
    v.clock = w.clock := by
  unfold endWait at h
  split at h
  · rw [Option.some.inj h]
  · obtain ⟨due, -, hw⟩ := Option.bind_eq_some_iff.mp h
    exact clock_wake hw

theorem clock_takeOff (w : World α ε) (i : Nat) (a : Actor α ε) (c : Bool) :
    (w.takeOff i a c).2.clock = w.clock := by
  unfold takeOff
  split <;> rfl

theorem clock_land (w : World α ε) (i : Nat) (f : Flight α ε) :
    (w.land i f).2.clock = w.clock := by
  unfold land
  split
  · rfl
  · rfl
  · exact clock_cancel w _

theorem clock_goOn (w : World α ε) (i : Nat) (who : String) (f : Flight α ε) (c : Bool) :
    (w.goOn i who f c).2.clock = w.clock := by
  unfold goOn
  split
  · rfl
  · split
    · rfl
    · split
      · rfl
      · rename_i hw
        rw [clock_land, clock_endWait hw]

theorem clock_poll (w : World α ε) (i : Nat) (c : Bool) : (w.poll i c).2.clock = w.clock := by
  unfold poll
  split
  · rfl
  · rename_i a _
    exact (clock_goOn _ i a.name _ c).trans (clock_takeOff w i a c)

theorem clock_roll (w : World α ε) : w.roll.2.clock = w.clock := by
  -- the new seed is named, or else it would be computed
  obtain ⟨seed, hs⟩ : ∃ seed, w.roll.2 = { w with seed := seed } := ⟨_, rfl⟩
  rw [hs]

theorem clock_writeAll (w : World α ε) (es : List Entry) : (w.writeAll es).clock = w.clock := by
  induction es generalizing w with
  | nil => rfl
  | cons e es ih => exact ih (w.write e)

theorem clock_publish (w : World α ε) (i : Nat) (n : Notice) : (w.publish i n).clock = w.clock := by
  unfold publish
  split
  · rfl
  · exact clock_writeAll w _

end Reattempt.Rehearsal.World
