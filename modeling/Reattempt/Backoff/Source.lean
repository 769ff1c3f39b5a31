import Reattempt.Duration

/-!
# Sources of delays

A source answers three questions on a state of its own: the next delay, which
moves it on, the delay to come, and the whole seconds of that, for a reader.
Randomness comes from outside: each draw is handed a sequence of rolls. Nothing
here says that looking ahead leaves the state alone; where that matters it is a
hypothesis.
-/

namespace Reattempt.Backoff

/-- As many random numbers as a draw may ask for, each of any size. -/
abbrev Rolls := Nat → Nat

/-- What a generator of delays can be asked, on states of type `σ`. -/
structure Source (σ : Type) where
  next : Rolls → σ → Duration × σ
  peek : σ → Duration × σ
  peekSeconds : σ → UInt64 × σ

namespace Source

/-- The whole seconds of what `peek` answers, for a source that says nothing else. -/
def wholeSeconds {σ : Type} (peek : σ → Duration × σ) (s : σ) : UInt64 × σ :=
  let (d, s) := peek s
  (d.secs, s)

/-- The delays drawn one after another, one sequence of rolls for each. -/
def draws {σ : Type} (src : Source σ) : List Rolls → σ → List Duration × σ
  | [], s => ([], s)
  | r :: rs, s =>
    let (d, s) := src.next r s
    let (ds, s) := src.draws rs s
    (d :: ds, s)

theorem draws_cons {σ : Type} (src : Source σ) (roll : Rolls) (rolls : List Rolls) (s : σ) :
    src.draws (roll :: rolls) s =
      ((src.next roll s).1 :: (src.draws rolls (src.next roll s).2).1,
        (src.draws rolls (src.next roll s).2).2) := rfl

end Source

end Reattempt.Backoff
