import TschLearning.Datum.Conversion

/-! The arithmetic of learned values. The schedulers are written over any
arithmetic of this interface: they run on binary64 numbers, and laws of theirs
that rounding would spoil are stated over the rational numbers. -/

namespace TschLearning

/-- Numbers to learn with. -/
class Arith (α : Type) extends Zero α, One α, Add α, Sub α, Mul α where
  lt : α → α → Bool
  -- whether the first number is at most the second; an undefined number is not even at most itself
  le : α → α → Bool
  largest : α → List α → α
  dividedBy? : α → Nat → Option α
  shown : α → Datum

namespace Arith

variable {α : Type} [Arith α]

/-- Whether `a` takes the place of `b` in a search for the largest number. The
first undefined number wins. -/
def exceeds (a b : α) : Bool := le b b && !le a b

/-- Whether `a` takes the place of `b` in a search for the smallest number. The
first undefined number wins. -/
def undercuts (a b : α) : Bool := le b b && !le b a

def isProbability (p : α) : Bool := le 0 p && le p 1

end Arith

/-- The position of the first item that no other item beats, `best` being that of
the items before `next`. -/
def bestPositionFrom {α : Type} (beats : α → α → Bool) (best : α) (position : Nat) :
    Nat → List α → Nat
  | _, [] => position
  | next, x :: xs =>
    if beats x best then bestPositionFrom beats x next (next + 1) xs
    else bestPositionFrom beats best position (next + 1) xs

/-- The position of the first item that no other item beats, zero if there is none. -/
def bestPosition {α : Type} (beats : α → α → Bool) : List α → Nat
  | [] => 0
  | x :: xs => bestPositionFrom beats x 0 1 xs

/-- Binary64 numbers. A row with an undefined number has no other largest one. Zeros of either
sign are equal, and the last one stands for them. -/
instance : Arith Float where
  zero := 0.0
  one := 1.0
  lt a b := decide (a < b)
  le a b := decide (a ≤ b)
  largest x xs := xs.foldl (fun best y => if best ≤ best ∧ ¬y < best then y else best) x
  dividedBy? x n := (Binary64.ofInt? n).map (x / ·)
  shown := .float

end TschLearning
