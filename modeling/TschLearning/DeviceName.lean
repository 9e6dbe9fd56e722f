import TschLearning.Datum.Conversion
import TschLearning.Ranking
import TschLearning.Tally

/-! The names of devices, and counts by them. Any value will do for a name that can be found
again by what it is equal to; most are texts. Numbers are equal across their kinds. An undefined
number is equal to no other one, so it stands for the device that has it. -/

namespace TschLearning

/-- What the name of a device is found by. -/
inductive DeviceName where
  | null
  | int (i : Int)
  -- a number that is no integer, by its bits
  | float (bits : UInt64)
  -- an undefined number, by its device
  | undefined (device : Nat)
  | text (s : String)
deriving DecidableEq

namespace DeviceName

def ofFloat (device : Nat) (x : Float) : DeviceName :=
  if x.isNaN then .undefined device
  else match (Number.float x).truncated? with
    | some i => if Number.same (.float x) (.int i) then .int i else .float x.toBits
    | none => .float x.toBits

/-- What the name of a device is found by, if it can be found at all. -/
def ofDatum? (device : Nat) : Datum → Option DeviceName
  | .null => some .null
  | .bool b => some (.int (if b then 1 else 0))
  | .int i => some (.int i)
  | .float x => some (ofFloat device x)
  | .text s => some (.text s)
  | .list _ | .dict _ => none

end DeviceName

/-- Counts by the names of devices, each name as it was first spelled. -/
structure Roster where
  counts : Tally DeviceName
  spellings : List (DeviceName × Datum)

namespace Roster

def empty : Roster := ⟨.empty, []⟩

def count (r : Roster) (name : DeviceName) : Nat := r.counts.count name

def total (r : Roster) : Nat := r.counts.total

/-- Takes down how a name is spelled, unless that is known. -/
def spell (r : Roster) (name : DeviceName) (spelling : Datum) : Roster :=
  if (r.spellings.lookup name).isSome then r
  else { r with spellings := r.spellings ++ [(name, spelling)] }

def bump (r : Roster) (name : DeviceName) (spelling : Datum) : Roster :=
  { r.spell name spelling with counts := r.counts.bump name }

/-- Whether names have an order. A single one needs none. -/
def haveOrder : List (DeviceName × Datum) → Bool
  | [] | [_] => true
  | e :: rest => rest.all fun f => e.2.hasOrderWith f.2

def arranged (spellings : List (DeviceName × Datum)) : List (DeviceName × Datum) :=
  Ranking.arrange (·.2.isPlaced) (fun e f => e.2.before f.2) spellings

def names (r : Roster) : List (DeviceName × Datum) := arranged r.spellings

def counted (r : Roster) : List (DeviceName × Datum) :=
  r.spellings.filter fun e => 0 < r.count e.1

/-- The names that were counted in order, as they are spelled, with their counts. -/
def entries (r : Roster) : List (Datum × Nat) :=
  (arranged r.counted).map fun e => (e.2, r.count e.1)

theorem count_bump (r : Roster) (name name' : DeviceName) (spelling : Datum) :
    (r.bump name spelling).count name' = if name' = name then r.count name + 1 else r.count name' :=
  Tally.count_bump r.counts name name'

theorem total_bump (r : Roster) (name : DeviceName) (spelling : Datum) :
    (r.bump name spelling).total = r.total + 1 :=
  Tally.total_bump r.counts name

end Roster
end TschLearning
