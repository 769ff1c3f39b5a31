import Reattempt.Refusal

/-!
# Records under construction

A record is put together from named parts, each of which may be given once. A
slot says how a value becomes its part and whether that part is there already.
Formats differ in their values and in how they report a refusal, not in this.
-/

namespace Reattempt

/-- A part of a record `σ`, made from values of type `ν`. -/
structure Slot (ν ρ σ : Type) where
  name : String
  isFilled : σ → Bool
  fill : ν → σ → Except ρ σ

namespace Slot

variable {α ν ρ σ : Type}

/-- A slot for a part that is missing at first. -/
def optional (name : String) (get : σ → Option α) (set : α → σ → σ)
    (read : ν → Except ρ α) : Slot ν ρ σ where
  name
  isFilled s := (get s).isSome
  fill v s := (set · s) <$> read v

/-- The slot that a key names. -/
def named? (slots : List (Slot ν ρ σ)) (key : String) : Option (Slot ν ρ σ) :=
  slots.find? (·.name == key)

/-- Fills a slot; one that is filled refuses, whatever the value. -/
def fillOnce (refuse : Refusal → ρ) (slot : Slot ν ρ σ) (v : ν) (s : σ) : Except ρ σ :=
  if slot.isFilled s then .error (refuse (.duplicateField slot.name)) else slot.fill v s

end Slot

end Reattempt
