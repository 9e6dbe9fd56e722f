import TschLearning.Binary64.Shortest

/-! Decimals with a given number of places or of digits, also with an exponent. The exact value
of a number is rounded once, a half to the even decimal. -/

namespace TschLearning.Binary64

/-- The ways to write a magnitude: with so many places, with so many places and an exponent, or
with so many digits in the one way or the other. -/
inductive Style where
  | fixed | exponential | general
deriving DecidableEq, Repr

/-- The decimal of `count` digits that is nearest to `n / d`: its digits, read as one number,
and the exponent of the first of them. -/
def nearestDigits (n d count : Nat) : Nat × Int :=
  if n = 0 then (0, 0)
  else
    let point := decimalPoint n d
    let (p, q) := scaledByTen n d (count - point)
    let digits := roundHalfEven p q
    if digits = Nat.pow 10 count then (Nat.pow 10 (count - 1), point) else (digits, point - 1)

/-- Drops the zeros at the end of a decimal with a point, and the point if it comes last. -/
def trimPlaces (s : String) : String :=
  if s.toList.contains '.' then
    let kept := trimZeros s.toList
    String.ofList (if kept.getLast? == some '.' then kept.dropLast else kept)
  else s

/-- A decimal with `places` places; `pointed` ones end with a point if they have none. -/
def withPoint (pointed : Bool) (places units : Nat) : String :=
  placed places units ++ if pointed && places == 0 then "." else ""

def exponentText (e : Int) : String :=
  let power := toString e.natAbs
  "e" ++ (if e < 0 then "-" else "+") ++ "".pushn '0' (2 - power.length) ++ power

/-- No number has more digits than so many; behind them are only zeros. -/
def digitLimit : Nat := 1100

/-- The magnitude `n / d` in a style. Without `pointed`, the general style has no zeros at the
end. -/
def magnitude (style : Style) (pointed : Bool) (places n d : Nat) : String :=
  match style with
  | .fixed => withPoint pointed places (roundHalfEven (n * Nat.pow 10 places) d)
  | .exponential =>
    let (digits, e) := nearestDigits n d (places + 1)
    withPoint pointed places digits ++ exponentText e
  | .general =>
    let count := max (if pointed then places else min places digitLimit) 1
    let trimmed (s : String) : String := if pointed then s else trimPlaces s
    let (digits, e) := nearestDigits n d count
    if -4 ≤ e ∧ e < count then trimmed (withPoint pointed (count - 1 - e).toNat digits)
    else trimmed (withPoint pointed (count - 1) digits) ++ exponentText e

/-- Whether a number is written with a minus, and the rest of it. -/
def signAndMagnitude (style : Style) (pointed : Bool) (places : Nat) (x : Float) :
    Bool × String :=
  match value x with
  | .undefined => (false, "nan")
  | .infinite s => (s, "inf")
  | .dyadic s m e =>
    let (n, d) := fraction m e
    (s, magnitude style pointed places n d)

end TschLearning.Binary64
