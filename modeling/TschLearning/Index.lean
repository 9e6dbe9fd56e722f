import TschLearning.Datum.Conversion

/-! Checked indices. An index beyond the ends of a table is refused and never
wrapped around. -/

namespace TschLearning

/-- The natural number of an index within `[0, bound)`. `owner` stands in front of
the index' name in messages. -/
def checkIndex (owner name : String) (bound : Int) : Datum → Except Fault Nat
  | .int i =>
    if 0 ≤ i ∧ i < bound then .ok i.toNat
    else .error (.indexOutOfRange owner name i (.int bound))
  | d => .error (.notAnIndex owner name d)

/-- The same with a bound as it was handed over; it is looked at once the index is known to be
an integer that is not below zero. -/
def checkIndexBelow (owner name : String) (bound : Datum) (index : Datum) : Except Fault Nat :=
  match bound, index with
  | .int b, d => checkIndex owner name b d
  | bound, .int i =>
    if i < 0 then .error (.indexOutOfRange owner name i bound)
    else do
      if (Number.int i).lt (← bound.comparable) then return i.toNat
      else throw (.indexOutOfRange owner name i bound)
  | _, d => .error (.notAnIndex owner name d)

def checkDimension (name : String) : Datum → Except Fault Nat
  | .int i => if 1 ≤ i then .ok i.toNat else .error (.badDimension name (.int i))
  | d => .error (.badDimension name d)

/-- The bytes that can be addressed. -/
def addressable : Nat := 0x8000000000000000

/-- The bytes that can be kept. -/
def storable : Nat := 0x200000000

/-- Refuses a table with more cells, of so many bytes each, than can be addressed or kept. -/
def checkArea (cellBytes slots channels : Nat) : Except Fault Unit := do
  let bytes := slots * channels * cellBytes
  if addressable ≤ slots ∨ addressable ≤ channels ∨ addressable ≤ bytes then throw .unreadable
  if storable < bytes then throw .outOfMemory

def checkSlotNumber : Datum → Except Fault Nat
  | .int i => if 0 ≤ i then .ok i.toNat else .error (.badSlotNumber (.int i))
  | d => .error (.badSlotNumber d)

/-- How an owner stands in front of an index' name. -/
def possessive (owner : String) : String := owner ++ "."

theorem checkIndex_int_of_lt (owner name : String) {i bound : Int} (h0 : 0 ≤ i) (h : i < bound) :
    checkIndex owner name bound (.int i) = .ok i.toNat := by
  simp [checkIndex, h0, h]

theorem checkIndexBelow_int (owner name : String) (bound : Int) (index : Datum) :
    checkIndexBelow owner name (.int bound) index = checkIndex owner name bound index := rfl

theorem checkIndex_eq_ok {owner name : String} {bound : Int} {d : Datum} {n : Nat}
    (h : checkIndex owner name bound d = .ok n) : d = .int n ∧ (n : Int) < bound := by
  cases d with
  | int i =>
    simp only [checkIndex] at h
    split at h
    · rename_i hi
      cases h
      exact ⟨by rw [Int.toNat_of_nonneg hi.1], by omega⟩
    · cases h
  | _ => cases h

end TschLearning
