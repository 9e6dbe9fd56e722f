import TschLearning.Fault
import TschLearning.Text.Numeral

/-! Values turned into the numbers that components compute with. -/

namespace TschLearning.Datum

/-- The number that takes part in a comparison. -/
def comparable : Datum → Except Fault Number
  | d => match d.number? with
    | some n => .ok n
    | none => .error .incomparable

mutual

/-- Whether two values are equal: numbers by their value, and rows if their items are. -/
def same : Datum → Datum → Bool
  | .list xs, .list ys => sameItems xs ys
  | .dict xs, .dict ys => xs.length == ys.length && sameEntries xs ys
  | .text s, .text t => s == t
  | .null, .null => true
  | x, y =>
    match x.number?, y.number? with
    | some m, some n => m.same n
    | _, _ => false

def sameItems : List Datum → List Datum → Bool
  | [], [] => true
  | x :: xs, y :: ys => same x y && sameItems xs ys
  | _, _ => false

/-- Whether entries stand in a dictionary too, with equal values. -/
def sameEntries : List (String × Datum) → List (String × Datum) → Bool
  | [], _ => true
  | (k, x) :: xs, ys => (ys.lookup k).any (same x) && sameEntries xs ys

end

theorem same_int (i j : Int) : same (.int i) (.int j) = decide (i = j) := by
  rw [same]
  · exact Number.same_int i j
  all_goals simp

def before (a b : Datum) : Bool :=
  match a, b with
  | .text s, .text t => decide (s < t)
  | a, b =>
    match a.number?, b.number? with
    | some m, some n => m.lt n
    | _, _ => false

/-- Whether a value has a place among those of its kind, which an undefined number has not. -/
def isPlaced : Datum → Bool
  | .float x => !x.isNaN
  | _ => true

/-- Whether two values are of a kind that has an order: two numbers or two texts. -/
def hasOrderWith (a b : Datum) : Bool :=
  match a, b with
  | .text _, .text _ => true
  | a, b => a.number?.isSome && b.number?.isSome

/-- The integer of an integer or a truth value. -/
def whole : Datum → Except Fault Int
  | .int i => .ok i
  | .bool b => .ok (if b then 1 else 0)
  | _ => .error .notAnInteger

/-- How often something is to be done; below zero it is never done. -/
def rounds (d : Datum) : Except Fault Nat := return (← d.whole).toNat

/-- The most steps that are ever gone through. -/
def stepLimit : Int := 0x10000000

/-- The number of steps of an integer or a truth value; below zero there are none. -/
def steps : Datum → Except Fault Nat
  | .int i => if stepLimit < i then .error .outOfMemory else .ok i.toNat
  | .bool b => .ok (if b then 1 else 0)
  | _ => .error .notAnInteger

theorem steps_int_of_le {n : Nat} (h : (n : Int) ≤ stepLimit) : steps (.int n) = .ok n := by
  simp only [steps, if_neg (Int.not_lt.2 h), Int.toNat_natCast]

theorem steps_int_of_lt {i : Int} (h : stepLimit < i) : steps (.int i) = .error .outOfMemory := by
  simp only [steps, if_pos h]

/-- The nearest binary64 number; texts are read as decimals. -/
def toFloat : Datum → Except Fault Float
  | .text s => match Text.decimal? s with
    | some x => .ok x
    | none => .error .unreadable
  | d => match d.number? with
    | some (.float x) => .ok x
    | some (.int i) => match Binary64.ofInt? i with
      | some x => .ok x
      | none => .error .tooLarge
    | none => .error .notNumeric

/-- The whole part, rounded toward zero; texts are read as integers. -/
def toInt : Datum → Except Fault Int
  | .text s => match Text.integer? s with
    | some i => .ok i
    | none => .error .unreadable
  | d => match d.number? with
    | some n => match n.truncated? with
      | some i => .ok i
      | none => match n with
        | .float x => .error (if x.isNaN then .unreadable else .tooLarge)
        | .int _ => .error .tooLarge
    | none => .error .notNumeric

/-- The number that is added to a number or multiplied with one; texts are none. -/
def toOperand : Datum → Except Fault Float
  | .text _ => .error .notNumeric
  | d => d.toFloat

/-- The value written into a table cell: numbers, texts that read as one, and null
for an undefined number. -/
def toCell : Datum → Except Fault Float
  | .null => .ok (0.0 / 0.0)
  | .list _ => .error .unreadable
  | d => d.toFloat

end TschLearning.Datum
