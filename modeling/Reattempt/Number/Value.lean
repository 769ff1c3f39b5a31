import Reattempt.Number.Layout

/-!
# Numbers as data formats hand them over

A number arrives as an unsigned word, as a signed word or as a floating-point
number. Which of the three it is depends on the format, not on its size.
-/

namespace Reattempt.Number

inductive Value where
  | natural (n : UInt64)
  | signed (n : Int64)
  | floating (x : Binary)
deriving DecidableEq

/-- A number with the given layout for what is not an integer. -/
def Value.write (l : Layout) : Value → String
  | .natural n => toString n.toNat
  | .signed n => toString n.toInt
  | .floating x => l.write x

end Reattempt.Number
