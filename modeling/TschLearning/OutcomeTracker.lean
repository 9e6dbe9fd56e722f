import TschLearning.Grid
import TschLearning.Index

/-! Which channels of which slots have had a success in the current slotframe. -/

namespace TschLearning

/-- Whether a transmission succeeded, by slot and channel. -/
abbrev OutcomeTracker := Grid Bool

namespace OutcomeTracker

def create (slots channels : Datum) : Except Fault OutcomeTracker := do
  let slots ← checkDimension "slots" slots
  let channels ← checkDimension "channels" channels
  checkArea 1 slots channels
  return Grid.empty slots channels false

def label (t : OutcomeTracker) : String := s!"OutcomeTracker({t.slots}x{t.channels})"

def checkSlot (t : OutcomeTracker) (slot : Datum) : Except Fault Nat :=
  checkIndex (possessive t.label) "slot" t.slots slot

def checkChannel (t : OutcomeTracker) (channel : Datum) : Except Fault Nat :=
  checkIndex (possessive t.label) "channel" t.channels channel

/-- Enters an outcome. A failure never takes back a success. -/
def record (t : OutcomeTracker) (slot channel : Datum) (success : Bool) :
    Except Fault OutcomeTracker := do
  let s ← t.checkSlot slot
  let c ← t.checkChannel channel
  return if success then t.set s c true else t

def succeeded (t : OutcomeTracker) (slot channel : Datum) : Except Fault Bool := do
  let s ← t.checkSlot slot
  let c ← t.checkChannel channel
  return t.cell s c

def anySuccess (t : OutcomeTracker) : Bool := t.cells.any id

def successes (t : OutcomeTracker) : List (Nat × Nat) :=
  (List.range t.slots).flatMap fun s =>
    ((List.range t.channels).filter (t.cell s)).map fun c => (s, c)

end OutcomeTracker
end TschLearning
