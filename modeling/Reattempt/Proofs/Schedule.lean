import Reattempt.Proofs.Run
import Mathlib.Data.List.Induction

/-!
# Schedules

A schedule says what happens next: a machine makes a step, or something else
changes its world. Under one schedule a machine has one course, so that two
machines can be compared under the same schedule; and every run is the course of
some schedule.
-/

namespace Reattempt

variable {σ ω δ : Type}

inductive Happening (ω : Type) where
  | step
  | change (f : ω → ω)

namespace Happening

def apply (go : σ → ω → Progress σ ω) : Happening ω → σ × ω → σ × ω
  | .step, (s, w) => ((go s w).state, (go s w).world)
  | .change f, (s, w) => (s, f w)

/-- The same beside a record, which a change leaves alone. -/
def beside : Happening ω → Happening (Recording ω δ)
  | .step => .step
  | .change f => .change fun r => r.goOn (f r.1)

/-- The same beside something that a machine keeps for itself, which a change leaves alone. -/
def inside {γ : Type} : Happening ω → Happening (γ × ω)
  | .step => .step
  | .change f => .change fun p => (p.1, f p.2)

/-- The same in a larger world. -/
def outside {κ : Type} : Happening ω → Happening (ω × κ)
  | .step => .step
  | .change f => .change fun p => (f p.1, p.2)

/-- The same as seen in the part `π` of the world. -/
inductive Part {υ : Type} (π : υ → ω) : Happening υ → Happening ω → Prop where
  | step : Part π .step .step
  | change {f : υ → υ} {g : ω → ω} (h : ∀ v, g (π v) = π (f v)) : Part π (.change f) (.change g)

theorem part_outside {κ : Type} (l : List (Happening ω)) :
    List.Forall₂ (Part (Prod.fst (β := κ))) (l.map outside) l := by
  induction l with
  | nil => exact .nil
  | cons h l ih =>
    cases h with
    | step => exact .cons .step ih
    | change f => exact .cons (.change fun _ => rfl) ih

/-- Unless it is a step of the machine, it does not destroy `P`. -/
def Keeps (P : ω → Prop) : Happening ω → Prop
  | .step => True
  | .change f => ∀ w, P w → P (f w)

end Happening

/-- The course of a machine under a schedule. -/
def play (go : σ → ω → Progress σ ω) (l : List (Happening ω)) (p : σ × ω) : σ × ω :=
  l.foldl (fun p h => h.apply go p) p

theorem play_append (go : σ → ω → Progress σ ω) (l l' : List (Happening ω)) (p : σ × ω) :
    play go (l ++ l') p = play go l' (play go l p) := List.foldl_append

theorem play_concat (go : σ → ω → Progress σ ω) (l : List (Happening ω)) (h : Happening ω)
    (p : σ × ω) : play go (l ++ [h]) p = h.apply go (play go l p) := by
  rw [play_append]
  rfl

/-- What steps do in a part of the world they do there under every schedule. -/
theorem play_part {υ : Type} {π : υ → ω} {go : σ → ω → Progress σ ω} {go' : σ → υ → Progress σ υ}
    (hgo : ∀ s v, go s (π v) = (go' s v).at π) {l' : List (Happening υ)} {l : List (Happening ω)}
    (hl : List.Forall₂ (Happening.Part π) l' l) (s : σ) (v : υ) :
    play go l (s, π v) = ((play go' l' (s, v)).1, π (play go' l' (s, v)).2) := by
  induction hl generalizing s v with
  | nil => rfl
  | cons h _ ih =>
    cases h with
    | step =>
      have hfirst : Happening.step.apply go (s, π v) = ((go' s v).state, π (go' s v).world) := by
        rw [Happening.apply, hgo]
        rfl
      have hrest := ih (go' s v).state (go' s v).world
      rw [← hfirst] at hrest
      exact hrest
    | @change f g h =>
      have hrest := ih s (f v)
      rw [← h] at hrest
      exact hrest

namespace Recording

variable {go : σ → Recording ω δ → Progress σ (Recording ω δ)} {s t : σ} {r q : Recording ω δ}

/-- A recording as it is seen in the part `π` of its world. -/
def part {υ : Type} (π : υ → ω) (r : Recording υ δ) : Recording ω δ :=
  (π r.1, r.2.map fun x => ⟨x.deed, π x.before, π x.after⟩)

theorem part_note {υ : Type} (π : υ → ω) (r : Recording υ δ) (d : δ) (v : υ) :
    (r.part π).note d (π v) = (r.note d v).part π := by
  simp [part, note]

theorem part_beside {υ : Type} {π : υ → ω} {l' : List (Happening υ)} {l : List (Happening ω)}
    (hl : List.Forall₂ (Happening.Part π) l' l) :
    List.Forall₂ (Happening.Part (part (δ := δ) π)) (l'.map .beside) (l.map .beside) := by
  induction hl with
  | nil => exact .nil
  | cons h _ ih =>
    cases h with
    | step => exact .cons .step ih
    | change h => exact .cons (.change fun r => Prod.ext (h r.1) rfl) ih

/-- A schedule may do whatever a drift allows that allows everything. -/
theorem run_play (l : List (Happening ω)) (s : σ) (r : Recording ω δ) :
    Run go (Recording.drift fun _ _ _ => True) s r (play go (l.map .beside) (s, r)).1
      (play go (l.map .beside) (s, r)).2 := by
  induction l using List.reverseRecOn with
  | nil => exact .refl
  | append_singleton l h ih =>
    rw [List.map_append, List.map_singleton, play_concat]
    cases h with
    | step => exact ih.step
    | change f => exact ih.drift ⟨trivial, rfl⟩

theorem exists_play {drift : σ → ω → ω → Prop} (run : Run go (Recording.drift drift) s r t q) :
    ∃ l : List (Happening ω), play go (l.map .beside) (s, r) = (t, q) := by
  induction run with
  | refl => exact ⟨[], rfl⟩
  | step _ ih =>
    obtain ⟨l, ih⟩ := ih
    refine ⟨l ++ [.step], ?_⟩
    rw [List.map_append, List.map_singleton, play_concat, ih]
    rfl
  | @drift _ _ u _ hu ih =>
    obtain ⟨l, ih⟩ := ih
    refine ⟨l ++ [.change fun _ => u.1], ?_⟩
    rw [List.map_append, List.map_singleton, play_concat, ih]
    exact congrArg (Prod.mk _) (Prod.ext rfl hu.2.symm)

end Recording

end Reattempt
