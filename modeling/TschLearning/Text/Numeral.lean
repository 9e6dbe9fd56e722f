import TschLearning.Text.Digit

/-! Numerals: the texts that read as an integer or as a binary64 number. Blanks
around a numeral are skipped and an underscore may stand between two digits. -/

namespace TschLearning.Text

/-- Drops the blanks at both ends. -/
def trimBlanks (s : List Char) : List Char :=
  ((s.dropWhile isBlank).reverse.dropWhile isBlank).reverse

/-- The characters of a numeral without the blanks around it, its digits those of
ASCII. -/
def numeral (s : String) : List Char := (trimBlanks s.toList).map plainDigit

/-- Drops the underscores that stand between two digits; none if another one
remains. `afterDigit` says what stood in front. -/
def ungroup? (isDigit : Char → Bool) (afterDigit : Bool) : List Char → Option (List Char)
  | [] => some []
  | '_' :: c :: rest =>
    if afterDigit && isDigit c then (ungroup? isDigit true rest).map (c :: ·) else none
  | c :: rest => if c == '_' then none else (ungroup? isDigit (isDigit c) rest).map (c :: ·)

/-- Splits off a sign; true for a minus. -/
def splitSign : List Char → Bool × List Char
  | '-' :: rest => (true, rest)
  | '+' :: rest => (false, rest)
  | rest => (false, rest)

/-- The number that a row of digits writes. -/
def natOfDigits (digits : List Char) : Nat :=
  digits.foldl (fun n c => 10 * n + (c.toNat - '0'.toNat)) 0

/-- A non-empty row of digits and nothing else. -/
def digits? (s : List Char) : Option Nat :=
  if s.isEmpty || !s.all Char.isDigit then none else some (natOfDigits s)

def signedDigits? (s : List Char) : Option Int :=
  let (negative, rest) := splitSign s
  (digits? rest).map fun n => if negative then -(n : Int) else n

/-- The longest row of digits that is read as an integer; longer ones are refused, because
reading takes time quadratic in their length. -/
def digitLimit : Nat := 4300

def integer? (s : String) : Option Int := do
  let digits ← ungroup? Char.isDigit false (numeral s)
  if digitLimit < (digits.filter Char.isDigit).length then none else signedDigits? digits

def hexDigit? (c : Char) : Option Nat :=
  if c.isDigit then some (c.toNat - '0'.toNat)
  else if 'a' ≤ c.toLower ∧ c.toLower ≤ 'f' then some (c.toLower.toNat - 'a'.toNat + 10)
  else none

/-- Reads a hexadecimal integer behind its mark. -/
def hexadecimal? (s : String) : Option Nat :=
  match numeral s with
  | '0' :: 'x' :: rest => do
    let digits ← ungroup? (fun c => (hexDigit? c).isSome) true rest
    if digits.isEmpty then none
    else return (← digits.mapM hexDigit?).foldl (fun n d => 16 * n + d) 0
  | _ => none

/-- The number `n * 10 ^ e`. Exponents beyond the range of the format are cut to
one that is as far beyond. -/
def scientific (n : Nat) (e : Int) : Float :=
  if e < 0 then
    Float.ofScientific n true (min e.natAbs (400 + (toString n).length))
  else Float.ofScientific n false (min e.natAbs 400)

/-- Reads digits, a point with further digits, and an exponent. -/
def unsignedDecimal? (s : List Char) : Option Float := do
  let whole := s.takeWhile Char.isDigit
  let rest := s.dropWhile Char.isDigit
  let (part, rest) := match rest with
    | '.' :: rest => (rest.takeWhile Char.isDigit, rest.dropWhile Char.isDigit)
    | rest => ([], rest)
  let n ← digits? (whole ++ part)
  let e ← match rest with
    | [] => some 0
    | c :: rest => if c == 'e' || c == 'E' then signedDigits? rest else none
  return scientific n (e - part.length)

/-- Reads a binary64 number, the nearest one to the decimal written. -/
def decimal? (s : String) : Option Float := do
  let (negative, rest) := splitSign (← ungroup? Char.isDigit false (numeral s))
  let x ← match String.ofList (rest.map Char.toLower) with
    | "inf" | "infinity" => some (1.0 / 0.0)
    | "nan" => some (0.0 / 0.0)
    | _ => unsignedDecimal? rest
  return if negative then -x else x

end TschLearning.Text
