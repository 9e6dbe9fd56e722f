import TschLearning.Binary64

/-! Decimals with a fixed number of places. The exact value of the number is
rounded to the nearest decimal, a half to the even one. -/

namespace TschLearning.Binary64

/-- `n / d` rounded to the nearest natural number, a half to the even one. -/
def roundHalfEven (n d : Nat) : Nat :=
  let q := n / d
  match compare (2 * (n % d)) d with
  | .lt => q
  | .eq => q + q % 2
  | .gt => q + 1

/-- The text of `units / 10 ^ places`. -/
def placed (places units : Nat) : String :=
  let whole := toString (units / Nat.pow 10 places)
  if places = 0 then whole
  else
    let part := toString (units % Nat.pow 10 places)
    whole ++ "." ++ "".pushn '0' (places - part.length) ++ part

/-- The sign of a text: a minus for negative numbers, zero and infinity included. -/
def minus (negative : Bool) : String :=
  if negative then "-" else ""

/-- A number with `places` digits after the point. -/
def fixed (places : Nat) (x : Float) : String :=
  match value x with
  | .undefined => "nan"
  | .infinite s => minus s ++ "inf"
  | .dyadic s m e =>
    let (n, d) := fraction m e
    minus s ++ placed places (roundHalfEven (n * Nat.pow 10 places) d)

/-- A text moved to the right end of `width` columns. -/
def alignedRight (width : Nat) (s : String) : String :=
  "".pushn ' ' (width - s.length) ++ s

end TschLearning.Binary64
