import TschLearning.Datum.Conversion
import TschLearning.Draws

/-! Scripted draws: a row of numbers that is gone through again and again. -/

namespace TschLearning

/-- Numbers to draw, and how many draws were made. -/
structure Scripted where
  numbers : Array Float
  used : Nat

namespace Scripted

def uniform (g : Scripted) : Float × Scripted :=
  (g.numbers.getD (g.used % g.numbers.size) 0.0, { g with used := g.used + 1 })

/-- The share of a bound that a number stands for: their product rounded toward zero, and at
most the bound less one. -/
def share (bound : Number) (u : Float) : Except Fault Number := do
  let some b := bound.toFloat? | throw .tooLarge
  let whole ← (Datum.float (u * b)).toInt
  let greatest := bound.sub (.int 1)
  return if greatest.lt (.int whole) then greatest else .int whole

def below (bound : Nat) (g : Scripted) : Except Fault Int × Scripted :=
  let (u, g) := g.uniform
  (do (Datum.ofNumber (← share (.int bound) u)).toInt, g)

end Scripted

instance : Generator Scripted Float where
  uniform := Scripted.uniform
  below := Scripted.below

end TschLearning
