import TschLearning.Arith
import TschLearning.Grid
import TschLearning.Index

/-! The table of learned values. The single-device scheduler uses one with a
single channel. -/

namespace TschLearning

/-- Learned values by slot and channel. -/
abbrev ValueTable (α : Type) := Grid α

namespace ValueTable

variable {α : Type}

def create [Zero α] (slots channels : Datum) : Except Fault (ValueTable α) := do
  let slots ← checkDimension "slots" slots
  let channels ← checkDimension "channels" channels
  checkArea 8 slots channels
  return Grid.empty slots channels 0

def label (t : ValueTable α) : String := s!"ValueTable({t.slots}x{t.channels})"

def checkSlot (t : ValueTable α) (slot : Datum) : Except Fault Nat :=
  checkIndex (possessive t.label) "slot" t.slots slot

def checkChannel (t : ValueTable α) (channel : Datum) : Except Fault Nat :=
  checkIndex (possessive t.label) "channel" t.channels channel

def value (t : ValueTable α) (slot channel : Datum) : Except Fault α := do
  let s ← t.checkSlot slot
  let c ← t.checkChannel channel
  return t.cell s c

def rowOf (t : ValueTable α) (slot : Datum) : Except Fault (List α) := do
  return t.row (← t.checkSlot slot)

def update (t : ValueTable α) (slot channel : Datum) (v : α) : Except Fault (ValueTable α) := do
  let s ← t.checkSlot slot
  let c ← t.checkChannel channel
  return t.set s c v

variable [Arith α]

/-- The largest value of a slot. -/
def largestIn (t : ValueTable α) (slot : Nat) : α :=
  match t.row slot with
  | [] => t.blank
  | x :: xs => Arith.largest x xs

def largest (t : ValueTable α) : α :=
  match t.cells.toList with
  | [] => t.blank
  | x :: xs => Arith.largest x xs

/-- The first of the channels with the largest value in a slot. -/
def bestIn (t : ValueTable α) (slot : Nat) : Nat := bestPosition Arith.exceeds (t.row slot)

/-- The first of the slots with the largest value on the first channel. -/
def bestSlot (t : ValueTable α) : Nat :=
  bestPosition Arith.exceeds ((List.range t.slots).map (t.cell · 0))

/-- The largest value over all channels of a slot. -/
def maxOf (t : ValueTable α) (slot : Datum) : Except Fault α := do
  return t.largestIn (← t.checkSlot slot)

/-- The channel with the largest value in a slot, the lowest one on ties. -/
def bestChannel (t : ValueTable α) (slot : Datum) : Except Fault Nat := do
  return t.bestIn (← t.checkSlot slot)

end ValueTable
end TschLearning
