import TschLearning.Binary64.Fixed

/-! The shortest decimal that reads back as a given binary64 number, the nearest
one if there are several, and its layout. The decimals tried for each count of
digits are the two neighbours of the value on that decimal grid: if any decimal
of the grid lies in the interval that rounds to the number, one of them does. -/

namespace TschLearning.Binary64

/-- The positive decimal `0.d₁d₂… * 10 ^ point`, its digits read as one number. -/
structure Decimal where
  digits : Nat
  point : Int
deriving Repr, DecidableEq

/-- Numerator and denominator of `n / d * 10 ^ k`. -/
def scaledByTen (n d : Nat) (k : Int) : Nat × Nat :=
  if k < 0 then (n, d * Nat.pow 10 (-k).toNat) else (n * Nat.pow 10 k.toNat, d)

/-- The number of decimal digits of the whole part of `n / d`, negative for the
zeros after the point of a value below one tenth. -/
def decimalPoint (n d : Nat) : Int :=
  if d ≤ n then (toString (n / d)).length
  else
    let zeros := (toString ((d - 1) / n)).length
    -- `10 ^ -zeros ≤ n / d` fails exactly when the value has one zero more
    if d ≤ n * Nat.pow 10 zeros then 1 - zeros else -zeros

/-- The interval of reals that round to `m * 2 ^ e`, in units of a quarter of the
last place: its two ends, and whether they belong to it. -/
def roundingInterval (m : Nat) (e : Int) : Nat × Nat × Bool :=
  (4 * m - (if m = 0x10000000000000 ∧ -1074 < e then 1 else 2), 4 * m + 2, m % 2 == 0)

/-- The decimal of `count` digits nearest to `m * 2 ^ e`, if one rounds to it. -/
def withDigits? (m : Nat) (e point : Int) (count : Nat) : Option Nat :=
  let (low, high, closed) := roundingInterval m e
  let (n, d) := fraction m e
  let (n, d) := scaledByTen n d (count - point)
  let below := n / d
  let inside (c : Nat) : Bool :=
    -- `c` against `low / (4 * m)` and `high / (4 * m)` of the value `n / d`
    let c := c * d * (4 * m)
    if closed then decide (low * n ≤ c ∧ c ≤ high * n) else decide (low * n < c ∧ c < high * n)
  match inside below, inside (below + 1) with
  | false, false => none
  | true, false => some below
  | false, true => some (below + 1)
  | true, true =>
    match compare (2 * (n % d)) d with
    | .lt => some below
    | .eq => some (below + below % 2)
    | .gt => some (below + 1)

/-- Tries ever more digits; seventeen always suffice. -/
def searchDigits (m : Nat) (e point : Int) : Nat → Nat → Decimal
  | 0, count => { digits := (scaledByTen m 1 count).1, point }
  | tries + 1, count =>
    match withDigits? m e point count with
    | some digits => { digits, point := if digits = Nat.pow 10 count then point + 1 else point }
    | none => searchDigits m e point tries (count + 1)

/-- The shortest decimal that rounds to `m * 2 ^ e`, for a positive `m`. -/
def shortest (m : Nat) (e : Int) : Decimal :=
  let (n, d) := fraction m e
  searchDigits m e (decimalPoint n d) 17 1

/-- How a decimal is laid out: the least and the greatest exponent of the first
digit that are written without an exponent, and the least width of an exponent. -/
structure Layout where
  least : Int
  greatest : Int
  exponentWidth : Nat

/-- Numbers are written out from `0.0001` up to sixteen whole digits. -/
def plainLayout : Layout := ⟨-4, 15, 2⟩

def trimZeros (s : List Char) : List Char :=
  (s.reverse.dropWhile (· == '0')).reverse

def Decimal.written (layout : Layout) (d : Decimal) : String :=
  let digits := trimZeros (toString d.digits).toList
  let lead := d.point - 1
  if lead < layout.least ∨ layout.greatest < lead then
    let power := toString lead.natAbs
    let tail := if digits.length ≤ 1 then "" else "." ++ String.ofList (digits.drop 1)
    String.ofList (digits.take 1) ++ tail ++ "e" ++ (if lead < 0 then "-" else "+")
      ++ "".pushn '0' (layout.exponentWidth - power.length) ++ power
  else if d.point ≤ 0 then
    "0." ++ "".pushn '0' d.point.natAbs ++ String.ofList digits
  else
    let whole := d.point.natAbs
    let tail := digits.drop whole
    String.ofList (digits.take whole) ++ "".pushn '0' (whole - digits.length) ++ "."
      ++ (if tail.isEmpty then "0" else String.ofList tail)

/-- The shortest text that reads back as the number. -/
def text (x : Float) : String :=
  match value x with
  | .undefined => "nan"
  | .infinite s => minus s ++ "inf"
  | .dyadic s m e =>
    minus s ++ if m = 0 then "0.0" else (shortest m e).written plainLayout

end TschLearning.Binary64
