import Reattempt.Progress
import Mathlib.Data.List.ModifyLast

/-!
# Runs and their records

A run of a machine is a sequence of its steps; between two of them the rest of
the world may do what a drift allows. What a machine asks of its world is kept
in a record beside that world. A machine on a recording world is meant to do
the same as on the bare one; whether it does is proved for each machine.
-/

namespace Reattempt

variable {σ ω δ : Type}

/-- Progress as it is seen in a part of the world. -/
def Progress.at {υ : Type} (π : υ → ω) (p : Progress σ υ) : Progress σ ω :=
  ⟨p.moved, p.state, π p.world⟩

/-- Runs of a machine from `s` and `w`. `drift` says what may become of the world between
two steps. -/
inductive Run (step : σ → ω → Progress σ ω) (drift : σ → ω → ω → Prop) (s : σ) (w : ω) :
    σ → ω → Prop where
  | refl : Run step drift s w s w
  | step {t : σ} {v : ω} (run : Run step drift s w t v) :
      Run step drift s w (step t v).state (step t v).world
  | drift {t : σ} {v u : ω} (run : Run step drift s w t v) (hu : drift t v u) :
      Run step drift s w t u

/-- A run goes on with as many steps as it takes until the machine waits. -/
theorem Run.settle {step : σ → ω → Progress σ ω} {drift : σ → ω → ω → Prop} {s t t' : σ}
    {w v v' : ω} (run : Run step drift s w t v) {n : Nat}
    (hn : Reattempt.settle step n t v = some (t', v')) : Run step drift s w t' v' := by
  induction n generalizing t v with
  | zero => simp [Reattempt.settle] at hn
  | succ n ih =>
    unfold Reattempt.settle at hn
    by_cases hp : (step t v).moved = true
    · simp only [hp, if_true] at hn
      exact ih run.step hn
    · simp only [hp, Bool.false_eq_true, if_false, Option.some.injEq, Prod.mk.injEq] at hn
      obtain ⟨rfl, rfl⟩ := hn
      exact run.step

/-- Something done to a world, with the world before and after it. -/
structure Entry (ω δ : Type) where
  deed : δ
  before : ω
  after : ω

/-- A world with the record of what was done to it. -/
abbrev Recording (ω δ : Type) := ω × List (Entry ω δ)

namespace Recording

/-- Adds to the record that `d` has turned the world into `v`. -/
def note (r : Recording ω δ) (d : δ) (v : ω) : Recording ω δ := (v, r.2 ++ [⟨d, r.1, v⟩])

/-- Puts a new world beside the record. -/
def goOn (r : Recording ω δ) (v : ω) : Recording ω δ := (v, r.2)

/-- Puts a new world beside the record, and the last entry ends with that world. -/
def extend (r : Recording ω δ) (v : ω) : Recording ω δ :=
  (v, r.2.modifyLast fun x => { x with after := v })

/-- The same drift beside a record, which it leaves alone. -/
def drift (drift : σ → ω → ω → Prop) (s : σ) (r q : Recording ω δ) : Prop :=
  drift s r.1 q.1 ∧ q.2 = r.2

/-- The same drift beside a record whose last entry keeps up with the world: it ends where the
next step begins. -/
def follow (drift : σ → ω → ω → Prop) (s : σ) (r q : Recording ω δ) : Prop :=
  drift s r.1 q.1 ∧ q = r.extend q.1

theorem eq_nil_or_concat_of_follow {d : σ → ω → ω → Prop} {s : σ} {r q : Recording ω δ}
    (h : follow d s r q) : r.2 = [] ∧ q.2 = [] ∨
      ∃ l x, r.2 = l ++ [x] ∧ q.2 = l ++ [{ x with after := q.1 }] := by
  obtain ⟨-, hq⟩ := h
  rcases List.eq_nil_or_concat r.2 with hr | ⟨l, x, hr⟩
  · refine .inl ⟨hr, ?_⟩
    rw [hq, extend, hr]
    rfl
  · rw [List.concat_eq_append] at hr
    refine .inr ⟨l, x, hr, ?_⟩
    rw [hq, extend, hr, List.modifyLast_concat]

/-- Where recording changes nothing, every run has a record, if the world may drift beside
one as it does by itself. -/
theorem exists_run {step : σ → ω → Progress σ ω}
    {recorded : σ → Recording ω δ → Progress σ (Recording ω δ)} {d : σ → ω → ω → Prop}
    {d' : σ → Recording ω δ → Recording ω δ → Prop}
    (hstep : ∀ s r, step s r.1 = (recorded s r).at Prod.fst)
    (hd : ∀ s w v l, d s w v → ∃ l', d' s (w, l) (v, l')) {s t : σ} {w v : ω}
    (run : Run step d s w t v) (l : List (Entry ω δ)) :
    ∃ l', Run recorded d' s (w, l) t (v, l') := by
  induction run with
  | refl => exact ⟨l, .refl⟩
  | @step t v _ ih =>
    obtain ⟨l', ih⟩ := ih
    refine ⟨(recorded t (v, l')).world.2, ?_⟩
    rw [hstep t (v, l')]
    exact ih.step
  | drift _ hu ih =>
    obtain ⟨l', ih⟩ := ih
    obtain ⟨l'', hl⟩ := hd _ _ _ l' hu
    exact ⟨l'', ih.drift hl⟩

end Recording

/-- Every element of a list is as `P` says, given those before it. -/
def Each (P : List δ → δ → Prop) (l : List δ) : Prop :=
  ∀ l₁ x l₂, l = l₁ ++ x :: l₂ → P l₁ x

theorem each_nil (P : List δ → δ → Prop) : Each P [] := by
  intro l₁ x l₂ h
  simp at h

theorem each_concat {P : List δ → δ → Prop} {l : List δ} {x : δ} :
    Each P (l ++ [x]) ↔ Each P l ∧ P l x := by
  constructor
  · intro h
    refine ⟨fun l₁ y l₂ hl => h l₁ y (l₂ ++ [x]) (by simp [hl]), h l x [] rfl⟩
  · rintro ⟨hl, hx⟩ l₁ y l₂ h
    rcases List.eq_nil_or_concat l₂ with rfl | ⟨l₂, z, rfl⟩
    · obtain ⟨rfl, hy⟩ := List.append_inj' h rfl
      obtain rfl := List.singleton_inj.mp hy
      exact hx
    · rw [List.concat_eq_append, ← List.cons_append, ← List.append_assoc] at h
      exact hl l₁ y l₂ (List.append_inj' h rfl).1

end Reattempt
