import TschLearning.Binary64

/-! Numbers as callers hand them over: integers of any size and binary64 numbers.
Comparisons are exact also between the two. -/

namespace TschLearning

/-- An integer or a binary64 number. -/
inductive Number where
  | int (i : Int)
  | float (x : Float)

namespace Number

open Binary64

/-- Compares an integer with the value of a binary64 number. -/
def compareInt (i : Int) : Value → Option Ordering
  | .undefined => none
  | .infinite negative => some (if negative then .gt else .lt)
  | .dyadic negative m e =>
    let (n, d) := fraction m e
    some (compare (i * d) (signed negative n))

/-- The order of two numbers; none if one of them is undefined. -/
def compare? : Number → Number → Option Ordering
  | .int i, .int j => some (compare i j)
  | .int i, .float y => compareInt i (value y)
  | .float x, .int j => (compareInt j (value x)).map Ordering.swap
  | .float x, .float y =>
    if x < y then some .lt else if y < x then some .gt else if x == y then some .eq else none

/-- Whether `a` is below `b`; nothing is below or above an undefined number. -/
def lt (a b : Number) : Bool := compare? a b == some .lt

/-- Whether `a` is at most `b`; never for an undefined number. -/
def le (a b : Number) : Bool := (compare? a b).any Ordering.isLE

def same (a b : Number) : Bool := compare? a b == some .eq

/-- The nearest binary64 number; none for an integer beyond the largest one. -/
def toFloat? : Number → Option Float
  | .int i => ofInt? i
  | .float x => some x

/-- The nearest binary64 number, infinite for integers beyond the largest one. -/
def toFloat : Number → Float
  | .int i => (ofInt? i).getD (if i < 0 then -(1.0 / 0.0) else 1.0 / 0.0)
  | .float x => x

/-- The least binary64 number that is not below the number. Another one is below the number if
and only if it is below that. -/
def ceiling : Number → Float
  | .int i =>
    let x := (Number.int i).toFloat
    if lt (.float x) (.int i) then next x else x
  | .float x => x

/-- The sum, exact for two integers. -/
def add : Number → Number → Number
  | .int i, .int j => .int (i + j)
  | a, b => .float (a.toFloat + b.toFloat)

/-- The sum, exact for two integers; none if an integer that is added to a binary64 number
is beyond the largest one. -/
def add? : Number → Number → Option Number
  | .int i, .int j => some (.int (i + j))
  | a, b => do
    let x ← a.toFloat?
    let y ← b.toFloat?
    return .float (x + y)

/-- The difference, exact for two integers. -/
def sub : Number → Number → Number
  | .int i, .int j => .int (i - j)
  | a, b => .float (a.toFloat - b.toFloat)

/-- The whole part of a fraction, rounded toward zero; none for an infinite or an
undefined number. -/
def truncated? : Number → Option Int
  | .int i => some i
  | .float x =>
    match value x with
    | .dyadic negative m e =>
      let (n, d) := fraction m e
      some (signed negative (n / d))
    | _ => none

/-- Numerator and denominator; zero for an infinite or an undefined number. -/
def ratio : Number → Int × Nat
  | .int i => (i, 1)
  | .float x =>
    match value x with
    | .dyadic negative m e =>
      let (n, d) := fraction m e
      (signed negative n, d)
    | _ => (0, 1)

/-- The remainder of `n` on division by a binary64 number, which has the sign of the divisor;
none for a divisor of zero. -/
def remainderByFloat? (n : Nat) (y : Float) : Option Float :=
  match value y with
  | .undefined => some y
  | .infinite negative =>
    some (if !negative then Float.ofNat n else if n = 0 then -0.0 else y)
  | .dyadic negative m e =>
    if m = 0 then none
    else
      let (p, q) := fraction m e
      let r := Int.fmod (n * q) (signed negative p)
      some (if r = 0 then (if negative then -0.0 else 0.0) else intQuotient r q)

/-- The remainder of `n` on division by a number, which has the sign of the divisor; none for
a divisor of zero. -/
def remainder? (n : Nat) : Number → Option Number
  | .int d => if d = 0 then none else some (.int (Int.fmod n d))
  | .float y => (remainderByFloat? n y).map .float

/-- How many steps of a positive width cover a span, at least. -/
def stepsToCover (span width : Number) : Nat :=
  let (p, q) := span.ratio
  let (r, s) := width.ratio
  if r ≤ 0 then 0 else ((p * s + (q * r - 1)) / (q * r)).toNat

def max (a b : Number) : Number := if a.lt b then b else a

def isProbability (p : Number) : Bool := le (.int 0) p && le p (.int 1)

theorem same_int (i j : Int) : same (.int i) (.int j) = decide (i = j) := by
  by_cases h : i = j
  · subst h
    simp [same, compare?]
  · have hne : compare i j ≠ .eq := fun e => h (Int.compare_eq_eq.1 e)
    simp [same, compare?, h, hne]

theorem le_int (i j : Int) : le (.int i) (.int j) = decide (i ≤ j) := by
  simp only [le, compare?, Option.any_some]
  rw [Bool.eq_iff_iff, decide_eq_true_iff, Int.isLE_compare]

theorem lt_int (i j : Int) : lt (.int i) (.int j) = decide (i < j) := by
  simp only [lt, compare?]
  rw [Bool.eq_iff_iff, decide_eq_true_iff, beq_iff_eq, Option.some.injEq, Int.compare_eq_lt]

end Number
end TschLearning
