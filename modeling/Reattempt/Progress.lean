/-!
# Machines of small steps

A machine keeps a state of its own beside a world that it shares with others.
A step either moves it on or finds that it must wait; a machine that has ended
waits for ever. `settle` lets a machine go on until it waits. Fuel exhaustion
is `none`, never a state.
-/

namespace Reattempt

/-- What a step leaves behind, and whether it moved the machine on. -/
structure Progress (σ ω : Type) where
  moved : Bool
  state : σ
  world : ω

namespace Progress

variable {σ τ ω : Type}

def moving (s : σ) (w : ω) : Progress σ ω := ⟨true, s, w⟩

def waiting (s : σ) (w : ω) : Progress σ ω := ⟨false, s, w⟩

/-- The same progress seen from around the machine. -/
def map (f : σ → τ) (p : Progress σ ω) : Progress τ ω := ⟨p.moved, f p.state, p.world⟩

end Progress

variable {σ ω : Type}

/-- Steps until the machine waits, if `fuel` steps are enough for that. -/
def settle (step : σ → ω → Progress σ ω) : Nat → σ → ω → Option (σ × ω)
  | 0, _, _ => none
  | fuel + 1, s, w =>
    let p := step s w
    if p.moved then settle step fuel p.state p.world else some (p.state, p.world)

theorem settle_stable {step : σ → ω → Progress σ ω} {n : Nat} {s : σ} {w : ω} {r : σ × ω}
    (hr : settle step n s w = some r) {m : Nat} (hm : n ≤ m) : settle step m s w = some r := by
  induction n generalizing s w m with
  | zero => simp [settle] at hr
  | succ n ih =>
    obtain ⟨m, rfl⟩ : ∃ k, m = k + 1 := ⟨m - 1, by omega⟩
    unfold settle at hr ⊢
    by_cases hp : (step s w).moved = true
    · simp only [hp, if_true] at hr ⊢
      exact ih hr (by omega)
    · simpa [hp] using hr

end Reattempt
