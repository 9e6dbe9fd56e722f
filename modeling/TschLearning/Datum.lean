import TschLearning.Number

/-! Values as callers hand them over, before anything is known about them: what an
index, a probability or a channel list turns out to be is checked where it is
used. -/

namespace TschLearning

/-- A value that a caller hands over. -/
inductive Datum where
  | null
  | bool (b : Bool)
  | int (i : Int)
  | float (x : Float)
  | text (s : String)
  | list (items : List Datum)
  | dict (entries : List (String × Datum))
deriving Inhabited

namespace Datum

/-- Values that count as false are zero, the empty ones, and null. -/
def truthy : Datum → Bool
  | .null => false
  | .bool b => b
  | .int i => i != 0
  | .float x => !(x == 0.0)
  | .text s => !s.isEmpty
  | .list items => !items.isEmpty
  | .dict entries => !entries.isEmpty

/-- The number that a value stands for in comparisons and arithmetic. -/
def number? : Datum → Option Number
  | .bool b => some (.int (if b then 1 else 0))
  | .int i => some (.int i)
  | .float x => some (.float x)
  | _ => none

/-- The integer of a value that can be an index or a count; truth values cannot. -/
def integer? : Datum → Option Int
  | .int i => some i
  | _ => none

def ofNumber : Number → Datum
  | .int i => .int i
  | .float x => .float x

def items? : Datum → Option (List Datum)
  | .list items => some items
  | .text s => some (s.toList.map fun c => .text c.toString)
  | .dict entries => some (entries.map fun e => .text e.1)
  | _ => none

def ofInts (is : List Int) : List Datum := is.map .int

def ofNats (ns : List Nat) : List Datum := ns.map fun n => .int (n : Nat)

end Datum
end TschLearning
