import TschLearning.Arith
import TschLearning.Index

/-! Collision-peaking scores: overheard activity adds to the score of its slot and
every score decays from slotframe to slotframe. -/

namespace TschLearning

/-- The score of every slot. -/
structure PeakingTable (α : Type) where
  scores : List α

namespace PeakingTable

variable {α : Type} [Arith α]

def create (slots : Datum) : Except Fault (PeakingTable α) := do
  let slots ← checkDimension "slots" slots
  checkArea 8 slots 1
  return ⟨.replicate slots 0⟩

def slots (t : PeakingTable α) : Nat := t.scores.length

def label (t : PeakingTable α) : String := s!"PeakingTable({t.slots})"

def checkSlot (t : PeakingTable α) (slot : Datum) : Except Fault Nat :=
  checkIndex (possessive t.label) "slot" t.slots slot

def score (t : PeakingTable α) (slot : Datum) : Except Fault α := do
  return t.scores.getD (← t.checkSlot slot) 0

def bump (t : PeakingTable α) (slot : Datum) (amount : α) : Except Fault (PeakingTable α) := do
  let s ← t.checkSlot slot
  return ⟨t.scores.modify s (· + amount)⟩

def decay (t : PeakingTable α) (sigma : α) : PeakingTable α := ⟨t.scores.map (· * sigma)⟩

/-- Multiplies the score of every slot by a factor of its own. -/
def scale (t : PeakingTable α) (factors : List α) : PeakingTable α :=
  ⟨List.zipWith (· * ·) t.scores factors⟩

/-- The first of the slots with the lowest score. -/
def quietest (t : PeakingTable α) : Nat := bestPosition Arith.undercuts t.scores

end PeakingTable
end TschLearning
