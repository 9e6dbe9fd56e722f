import TschLearning.Datum

/-! What can be seen of a testbed, piece by piece. -/

namespace TschLearning.Testbed

/-- A component, or a part of one, at one moment. -/
inductive Snapshot where
  -- a value, its floats to the bit
  | value (d : Datum)
  -- a value, its floats as decimal numerals
  | plain (d : Datum)
  | row (items : List Snapshot)
  | record (fields : List (String × Snapshot))

namespace Snapshot

def null : Snapshot := .value .null

def bool (b : Bool) : Snapshot := .value (.bool b)

def int (i : Int) : Snapshot := .value (.int i)

def nat (n : Nat) : Snapshot := .value (.int n)

def float (x : Float) : Snapshot := .value (.float x)

def text (s : String) : Snapshot := .value (.text s)

def optional {τ : Type} (f : τ → Snapshot) : Option τ → Snapshot
  | some t => f t
  | none => null

def floats (xs : List Float) : Snapshot := .row (xs.map float)

def rows (xs : List (List Float)) : Snapshot := .row (xs.map floats)

def ints (is : List Int) : Snapshot := .row (is.map int)

def nats (ns : List Nat) : Snapshot := .row (ns.map nat)

def pair (a b : Snapshot) : Snapshot := .row [a, b]

end Snapshot
end TschLearning.Testbed
