import TschLearning.Binary64.Exponential
import TschLearning.Datum.Conversion
import TschLearning.Word

/-! Message templates. A place of a template is a percent sign, followed by how a value is to
be laid out and a letter for the form that it takes. The places are filled by values in turn,
or by those of a dictionary under the names that the places give. -/

namespace TschLearning.Text

structure Place where
  -- whether the form is the more explicit one of its kind
  explicit : Bool := false
  zeros : Bool := false
  left : Bool := false
  blank : Bool := false
  plus : Bool := false
  width : Nat := 0
  precision : Option Nat := none

namespace Place

def flag? (p : Place) : Char → Option Place
  | '#' => some { p with explicit := true }
  | '0' => some { p with zeros := true }
  | '-' => some { p with left := true }
  | ' ' => some { p with blank := true }
  | '+' => some { p with plus := true }
  | _ => none

def readFlags (p : Place) : List Char → Place × List Char
  | [] => (p, [])
  | c :: rest =>
    match p.flag? c with
    | some p => p.readFlags rest
    | none => (p, c :: rest)

/-- A text moved to the end of its columns. -/
def aligned (p : Place) (s : String) : String :=
  let missing := p.width - s.length
  if p.left then s.pushn ' ' missing else "".pushn ' ' missing ++ s

/-- A number with its sign and with what stands in front of its digits. -/
def number (p : Place) (negative : Bool) (mark digits : String) : String :=
  let sign := if negative then "-" else if p.plus then "+" else if p.blank then " " else ""
  let front := sign ++ mark
  if p.zeros && !p.left then
    front ++ "".pushn '0' (p.width - front.length - digits.length) ++ digits
  else p.aligned (front ++ digits)

def integer (p : Place) (base : Nat) (mark : String) (upper : Bool) (i : Int) : String :=
  let digits := String.ofList (Nat.toDigits base i.natAbs)
  let digits := "".pushn '0' (p.precision.getD 1 - digits.length) ++ digits
  let shown := (if p.explicit then mark else "", digits)
  let shown := if upper then (shown.1.toUpper, shown.2.toUpper) else shown
  p.number (i < 0) shown.1 shown.2

def decimal (p : Place) (style : Binary64.Style) (upper : Bool) (x : Float) : String :=
  let (negative, digits) := Binary64.signAndMagnitude style p.explicit (p.precision.getD 6) x
  p.number negative "" (if upper then digits.toUpper else digits)

/-- A text, cut to its precision. -/
def text (p : Place) (s : String) : String :=
  p.aligned (match p.precision with
    | some n => String.ofList (s.toList.take n)
    | none => s)

/-- A text in which only characters of ASCII show. -/
def plain (s : String) : String :=
  String.join (s.toList.map fun c => if c.toNat < 0x80 then c.toString else escapedCode c)

/-- The one character that a value stands for. -/
def character (d : Datum) : Option String :=
  match d with
  | .text s => if s.length = 1 then some s else none
  | d => do
    let i ← d.whole.toOption
    if 0 ≤ i ∧ i < 0x110000 then return (Char.ofNat i.toNat).toString else failure

/-- The whole number that a value is rounded to. -/
def rounded : Datum → Option Int
  | .text _ => none
  | d => d.toInt.toOption

/-- A value in the form of a letter. -/
def fill (p : Place) (letter : Char) (d : Datum) : Option String :=
  match letter with
  | 's' => some (p.text d.spoken)
  | 'r' => some (p.text d.written)
  | 'a' => some (p.text (plain d.written))
  | 'c' => p.aligned <$> character d
  | 'd' | 'i' | 'u' => p.integer 10 "" false <$> rounded d
  | 'o' => p.integer 8 "0o" false <$> d.whole.toOption
  | 'x' => p.integer 16 "0x" false <$> d.whole.toOption
  | 'X' => p.integer 16 "0x" true <$> d.whole.toOption
  | 'e' => p.decimal .exponential false <$> d.toOperand.toOption
  | 'E' => p.decimal .exponential true <$> d.toOperand.toOption
  | 'f' => p.decimal .fixed false <$> d.toOperand.toOption
  | 'F' => p.decimal .fixed true <$> d.toOperand.toOption
  | 'g' => p.decimal .general false <$> d.toOperand.toOption
  | 'G' => p.decimal .general true <$> d.toOperand.toOption
  | _ => none

end Place

/-- The most characters that there is room for in a place. -/
def room : Nat := 0x8000000

namespace Place

/-- Whether there is room for a place. A precision takes none if it cuts a text or if no zeros are
written at the end. -/
def hasRoom (p : Place) (letter : Char) : Bool :=
  let cuts := "srac".contains letter || !p.explicit && "gG".contains letter
  p.width ≤ room && (cuts || p.precision.all (· ≤ room))

end Place

/-- The values for the places of a template: a row that is used up, or a dictionary, which can
fill one place as a whole. -/
inductive Supply where
  | row (items : List Datum)
  | named (entries : List (String × Datum)) (whole : Option Datum)

namespace Supply

/-- A single dictionary that is not empty supplies its values by name. -/
def ofArguments : List Datum → Supply
  | [.dict (e :: entries)] => .named (e :: entries) (some (.dict (e :: entries)))
  | items => .row items

def next : Supply → Option (Datum × Supply)
  | .row (d :: rest) => some (d, .row rest)
  | .named entries (some d) => some (d, .named entries none)
  | _ => none

/-- Makes the value of a name the next one. -/
def select (name : String) : Supply → Option Supply
  | .named entries _ =>
    (entries.lookup name).map fun d => .named entries (some d)
  | .row _ => none

/-- Whether no value of a row is left. -/
def isUsedUp : Supply → Bool
  | .row items => items.isEmpty
  | .named .. => true

end Supply

/-- Splits off a name up to its closing parenthesis; parentheses inside go in pairs. -/
def readName? : Nat → List Char → Option (List Char × List Char)
  | _, [] => none
  | 0, ')' :: rest => some ([], rest)
  | depth + 1, ')' :: rest => (readName? depth rest).map fun r => (')' :: r.1, r.2)
  | depth, '(' :: rest => (readName? (depth + 1) rest).map fun r => ('(' :: r.1, r.2)
  | depth, c :: rest => (readName? depth rest).map fun r => (c :: r.1, r.2)

/-- The first precision that is too large. -/
def precisionLimit : Int := 0x80000000

/-- Reads a count: digits below a limit, or a star for the next value, which can also be as far
below zero. -/
def readCount (limit : Int) (supply : Supply) :
    List Char → Option (Option Int × Supply × List Char)
  | '*' :: rest => do
    let (d, supply) ← supply.next
    let i ← d.whole.toOption
    if i < -limit ∨ limit ≤ i then failure
    return (some i, supply, rest)
  | cs => do
    let digits := cs.takeWhile Char.isDigit
    if limit ≤ natOfDigits digits then failure
    return (if digits.isEmpty then none else some (natOfDigits digits), supply,
      cs.dropWhile Char.isDigit)

/-- Reads what stands between the percent sign and the letter of a place. -/
def readPlace (supply : Supply) (cs : List Char) :
    Option (Place × Supply × List Char) := do
  let (supply, cs) ← match cs with
    | '(' :: rest =>
      match supply, readName? 0 rest with
      | .row _, _ => failure
      | _, some (name, rest) => do pure (← supply.select (String.ofList name), rest)
      | _, none => failure
    | cs => pure (supply, cs)
  let (p, cs) := Place.readFlags {} cs
  let (width, supply, cs) ← readCount Word.limit supply cs
  let width := width.getD 0
  let columns := (Word.signed width.natAbs).toNat
  let p := { p with width := columns, left := p.left || width < 0 }
  let (p, supply, cs) ← match cs with
    | '.' :: rest => do
      let (precision, supply, rest) ← readCount precisionLimit supply rest
      pure ({ p with precision := some (precision.getD 0).toNat }, supply, rest)
    | cs => pure (p, supply, cs)
  let cs := match cs with
    | 'h' :: rest | 'l' :: rest | 'L' :: rest => rest
    | cs => cs
  return (p, supply, cs)

/-- Fills the places of a template in turn; `steps` bounds the characters. Two percent signs
stand for one. -/
def fillFrom : Nat → Supply → List Char → Option String
  | 0, _, _ => none
  | _, supply, [] => if supply.isUsedUp then some "" else none
  | steps + 1, supply, '%' :: '%' :: rest => return "%" ++ (← fillFrom steps supply rest)
  | steps + 1, supply, '%' :: cs => do
    let (p, supply, cs) ← readPlace supply cs
    match cs with
    | letter :: rest =>
      let (d, supply) ← supply.next
      if !p.hasRoom letter then failure
      let filled ← p.fill letter d
      return filled ++ (← fillFrom steps supply rest)
    | [] => failure
  | steps + 1, supply, c :: rest => return c.toString ++ (← fillFrom steps supply rest)

/-- Fills the places of a template; none if the arguments do not fit them. A template without
arguments is taken as it is. -/
def fill (template : String) (arguments : List Datum) : Option String :=
  if arguments.isEmpty then some template
  else fillFrom (template.length + 1) (.ofArguments arguments) template.toList

end TschLearning.Text
