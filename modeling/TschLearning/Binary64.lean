/-! What a binary64 number stands for, exactly, and the way back: the nearest
binary64 number to an integer and to a quotient of two integers. An integer too
large for the format has no nearest number. -/

namespace TschLearning.Binary64

open Float.Model (UnpackedFloat Format)

/-- The value of a binary64 number: a signed multiple of a power of two, an
infinity, or nothing. -/
inductive Value where
  | dyadic (negative : Bool) (mantissa : Nat) (exponent : Int)
  | infinite (negative : Bool)
  | undefined
deriving Repr, DecidableEq

def isNegative : Float.Model.UnpackedFloat.Sign → Bool
  | .positive => false
  | .negative => true

/-- Decodes a number. The mantissa of a finite one is in canonical form: below
`2 ^ 53`, and at least `2 ^ 52` unless the exponent is the least one. -/
def value (x : Float) : Value :=
  match x.toModel.unpack with
  | .notANumber => .undefined
  | .infinity s => .infinite (isNegative s)
  | .zero s => .dyadic (isNegative s) 0 (-1074)
  | .finite s m e _ => .dyadic (isNegative s) m e

def signed (negative : Bool) (magnitude : Nat) : Int :=
  if negative then -(magnitude : Int) else magnitude

/-- Numerator and denominator of `m * 2 ^ e`. -/
def fraction (m : Nat) (e : Int) : Nat × Nat :=
  if e < 0 then (m, Nat.pow 2 (-e).toNat) else (m * Nat.pow 2 e.toNat, 1)

/-- Integers from here on round to no finite number. -/
def integerLimit : Nat := Nat.pow 2 1024 - Nat.pow 2 970

/-- The nearest number to an integer, ties to the even mantissa. -/
def ofInt? (i : Int) : Option Float :=
  if i.natAbs < integerLimit then some (Float.ofInt i) else none

/-- The next larger number after one that is not zero. -/
def next (x : Float) : Float := .ofBits (if x < 0.0 then x.toBits - 1 else x.toBits + 1)

/-- A natural number before rounding. -/
def exactly (n : Nat) : UnpackedFloat :=
  if h : n = 0 then .zero .positive else .finite .positive n 0 (Nat.pos_of_ne_zero h)

/-- The nearest number to `n / d`, ties to the even mantissa; infinite beyond
the largest one. -/
def quotient (n d : Nat) : Float :=
  .ofModel (.pack (UnpackedFloat.div Format.binary64 (exactly n) (exactly d)))

def intQuotient (n d : Int) : Float :=
  if (n < 0) == (d < 0) then quotient n.natAbs d.natAbs else -quotient n.natAbs d.natAbs

def intQuotient? (n d : Int) : Option Float :=
  let q := intQuotient n d
  if q.isInf then none else some q

end TschLearning.Binary64
