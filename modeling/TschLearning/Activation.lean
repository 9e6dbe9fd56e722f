import TschLearning.Datum.Conversion

/-! The gate between settling and learning. It counts slotframe boundaries and opens
for good once a given number of them has passed. -/

namespace TschLearning

/-- A gate; the count is that of the boundaries while it is closed. -/
structure Activation where
  threshold : Datum
  count : Nat
  active : Bool

namespace Activation

/-- The gate of a threshold; a threshold of zero leaves it open from the start. -/
def create (threshold : Datum) : Except Fault Activation := do
  let n ← threshold.comparable
  if n.lt (.int 0) then throw (.mustNotBeNegative "deactivation_threshold" threshold)
  return { threshold, count := 0, active := !Number.lt (.int 0) n }

def isDue (a : Activation) : Bool := a.threshold.number?.any (·.le (.int a.count))

def counted (a : Activation) : Activation := { a with count := a.count + 1 }

def opened (a : Activation) : Activation := { a with active := true, count := 0 }

def advance (a : Activation) : Activation :=
  if a.active then a else if a.counted.isDue then a.opened else a.counted

def stateName (a : Activation) : String := if a.active then "ACTIVE" else "SETTLING"

def label (a : Activation) : String := "ActivationStateMachine(" ++ a.stateName ++ ")"

end Activation
end TschLearning
