import TschLearning.Datum.Conversion
import TschLearning.Word

/-! Nested rows of values, and what they stand for in arithmetic: a row with a single number
inside stands for that number where one is added, and a row can have a factor for each of the
numbers that are multiplied. Where rows of different extents meet, single items are repeated.
Side by side, values are taken for values of one kind. -/

namespace TschLearning.Datum

/-- The extents of nested rows: none if rows side by side differ in theirs. -/
def evenExtents? : Datum → Option (List Nat)
  | .list items =>
    let inner := items.map evenExtents?
    match inner with
    | [] => some [0]
    | first :: _ => first.bind fun f =>
      if inner.all (· == some f) then some (items.length :: f) else none
  | _ => some []

def depthLimit : Nat := 64

/-- The extents of nested rows that are even and not nested too deep. -/
def extents? (d : Datum) : Option (List Nat) :=
  d.evenExtents?.filter fun extents => extents.length ≤ depthLimit

/-- The number of values inside of rows of some extents. -/
def volume (extents : List Nat) : Nat := extents.foldr (· * ·) 1

/-- So many parts of a row, each of a length. -/
def parts {α : Type} (length : Nat) : Nat → List α → List (List α)
  | 0, _ => []
  | count + 1, row => row.take length :: parts length count (row.drop length)

/-- Nested rows of some extents from the values inside. -/
def nest : List Nat → List Datum → Datum
  | [], values => values.headD .null
  | n :: extents, values => .list ((parts (volume extents) n values).map (nest extents))

/-- The extents of rows that are met by rows of other ones, the inner ones first: in every
direction the extents have to be the same, unless one is a single item, which is repeated. -/
def meet? : List Nat → List Nat → Option (List Nat)
  | [], ms => some ms
  | ns, [] => some ns
  | n :: ns, m :: ms => do
    let outer ← meet? ns ms
    if n = m ∨ m = 1 then return n :: outer
    else if n = 1 then return m :: outer
    else none

/-- The value that stands at a place of larger rows, by its place among the values inside of the
rows that are repeated. Extents are given the inner ones first. -/
def sourceOf : List Nat → List Nat → Nat → Nat
  | n :: ns, m :: ms, i => (if n = 1 then 0 else i % m) + n * sourceOf ns ms (i / m)
  | _, _, _ => 0

/-- The values inside of nested rows, in order. -/
def leaves : Datum → List Datum
  | .list items => (items.map leaves).flatten
  | d => [d]

/-- What the values inside of rows are taken for. -/
inductive RowKind where
  | truths
  | signed
  | unsigned
  -- binary64 numbers, also where there is nothing inside
  | fractions
  -- a text makes texts of all numbers beside it
  | texts
  | mixed
deriving DecidableEq, Repr

namespace RowKind

/-- What a single value is taken for. -/
def ofValue : Datum → RowKind
  | .bool _ => .truths
  | .int i => if Word.isSigned i then .signed else if Word.fits i then .unsigned else .mixed
  | .float _ => .fractions
  | .text _ => .texts
  | .null | .dict _ | .list _ => .mixed

/-- What values of two kinds are taken for side by side. -/
def join : RowKind → RowKind → RowKind
  | .mixed, _ | _, .mixed => .mixed
  | .texts, _ | _, .texts => .texts
  | .truths, k | k, .truths => k
  | j, k => if j = k then j else .fractions

/-- Whether there is arithmetic with the numbers of a row. -/
def isNumeric : RowKind → Bool
  | .texts | .mixed => false
  | _ => true

def isIntegral : RowKind → Bool
  | .signed | .unsigned => true
  | _ => false

end RowKind

def rowKind (row : Datum) : RowKind :=
  match row.leaves.map RowKind.ofValue with
  | [] => .fractions
  | first :: rest => rest.foldl RowKind.join first

/-- The values inside of rows as they are taken for; truth values are one and zero. -/
def alike (row : Datum) : List Datum :=
  match row.rowKind with
  | .mixed => row.leaves
  | .texts => row.leaves.map fun d => .text d.spoken
  | .fractions => (row.leaves.filterMap number?).map fun n => .float n.toFloat
  | .truths | .signed | .unsigned => (row.leaves.filterMap number?).map ofNumber

/-- The product of two values. A text is repeated, for which there has to be an integer of 64 bits,
and stays a text. -/
def times (a b : Datum) : Except Fault Datum :=
  match a.number?, b.number? with
  | some (.int i), some (.int j) => .ok (.int (i * j))
  | some m, some n =>
    match m.toFloat?, n.toFloat? with
    | some x, some y => .ok (.float (x * y))
    | _, _ => .error .tooLarge
  | _, _ =>
    match a, b with
    | .text s, d | d, .text s => do
      if Word.isSigned (← d.whole) then return .text s else throw .tooLarge
    | _, _ => .error .notNumeric

/-- The product of the values inside of rows. One of integers of 64 bits wraps. -/
def product (row : Datum) : Except Fault Datum := do
  if row.extents?.isNone then throw .unreadable
  let kind := row.rowKind
  if kind = .texts then throw .foreignOperand
  match row.alike with
  | [] => return .float 1.0
  | first :: rest =>
    let p ← rest.foldlM times first
    match kind, p with
    | .truths, .int i | .signed, .int i => return .int (Word.signed (Word.unsigned i))
    | .unsigned, .int i => return .int (Word.unsigned i)
    | _, p => return p

/-- The number that is added: nested rows stand for the one number inside of them. -/
def toAddend : Datum → Except Fault Float
  | .list items => do
    let row := Datum.list items
    if row.extents?.isNone then throw .unreadable
    if row.rowKind = .texts then throw .foreignOperand
    match ← row.leaves.mapM toOperand with
    | [x] => return x
    | _ => throw .unreadable
  | .text _ => .error .foreignOperand
  | d => d.toOperand

/-- The factors for a row of numbers: one for each, or one for all. -/
def toFactors (count : Nat) : Datum → Except Fault (List Float)
  | .list items => do
    let row := Datum.list items
    let some extents := row.extents? | throw .unreadable
    if !row.rowKind.isNumeric then throw .foreignOperand
    let factors ← row.leaves.mapM toOperand
    match factors with
    | [x] => if extents = [1] then return .replicate count x else throw .unreadable
    | factors => if extents = [count] then return factors else throw .unreadable
  | .null | .text _ | .dict _ => .error .foreignOperand
  | d => return .replicate count (← d.toOperand)

end TschLearning.Datum
