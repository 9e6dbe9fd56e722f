import TschLearning.Datum.Nested
import TschLearning.Draws.Rng

/-! Integers below bounds as callers hand them over: a draw, a row of them, or nested rows with a
bound of its own for every place. Bounds are checked before anything is drawn. -/

namespace TschLearning

namespace Scripted

def drawBelow (bound : Datum) : Action Scripted Datum := fun g =>
  let (u, g) := g.uniform
  match bound.number? with
  | none => .error .notNumeric g
  | some b =>
    match share b u with
    | .ok n => .ok (.ofNumber n) g
    | .error f => .error f g

/-- A number as it stands in a row: an integer of 64 bits. -/
def stored (d : Datum) : Except Fault Datum := do
  let i ← d.toInt
  if Word.isSigned i then return .int i else throw .tooLarge

def drawTimes (bound : Datum) : Nat → Action Scripted (List Datum)
  | 0 => pure []
  | count + 1 => do
    let d ← drawBelow bound
    return d :: (← drawTimes bound count)

def drawRow (bound size : Datum) : Action Scripted Datum := do
  let drawn ← drawTimes bound (← Action.ofExcept size.rounds)
  return .list (← Action.ofExcept (drawn.mapM stored))

end Scripted

namespace Permuted

/-- The bounds inside of rows, with their extents; a bound that stands alone has none. -/
structure Bounds where
  extents : List Nat
  values : List Nat

namespace Bounds

/-- The whole part of a bound in the range of draws. -/
def wholeOf (d : Datum) : Except Fault Int := do
  let i ← d.toInt
  if i ≤ -Word.limit ∨ Word.limit < i then throw .emptyRange else return i

/-- How deep rows of bounds may be nested to be gone through one by one. -/
def depthLimit : Nat := 32

/-- Reads bounds, each above zero. Those that are integers to begin with are read together, others
one by one. -/
def ofDatum (bound : Datum) : Except Fault Bounds := do
  let some extents := bound.extents? | throw .unreadable
  if depthLimit < extents.length ∧ !bound.rowKind.isIntegral then throw .tooDeep
  let wholes ← bound.alike.mapM wholeOf
  if wholes.any (· ≤ 0) then throw .emptyRange
  return { extents, values := wholes.map Int.toNat }

/-- Whether bounds for rows of so many extents are found without going through rows that are nested
too deep. -/
def reaches (b : Bounds) (depth : Nat) : Bool :=
  b.extents.isEmpty || (b.extents.length ≤ depthLimit && depth ≤ depthLimit)

/-- A bound for every value inside of rows of some extents. Where the rows of bounds are larger,
those that come first are taken. -/
def inRows (b : Bounds) (extents : List Nat) : Except Fault (List Nat) := do
  if !b.reaches extents.length then throw .tooDeep
  let inner := b.extents.reverse
  let some larger := Datum.meet? inner extents.reverse | throw .unreadable
  let values := b.values.toArray
  (List.range (Datum.volume extents)).mapM fun i =>
    match values[Datum.sourceOf inner larger i]? with
    | some bound => .ok bound
    | none => .error .unreadable

end Bounds

/-- An integer below each bound in turn. -/
def drawEach : List Nat → Action Permuted (List Datum)
  | [] => pure []
  | bound :: rest => do
    let i ← Generator.drawBelow bound
    return .int i :: (← drawEach rest)

/-- An extent that a size asks for, which is no truth value. -/
def extentOf : Datum → Except Fault Int
  | .int i => if Word.isSigned i then .ok i else .error .unreadable
  | _ => .error .notAnInteger

/-- The number of values that there is room for. -/
def room : Nat := 0x80000000

/-- The extents that a size asks for. The values inside, of 8 bytes each, have to have addresses,
and then they have to have room. -/
def extentsOf (size : Datum) : Except Fault (List Nat) := do
  let given ← match size with
    | .list items =>
      if Datum.depthLimit < items.length then throw .unreadable else items.mapM extentOf
    | d => do pure [← extentOf d]
  if given.any (· < 0) then throw .unreadable
  let extents := given.map Int.toNat
  let filled := Datum.volume (extents.filter (0 < ·))
  if !Word.isSigned (8 * filled) then throw .unreadable
  if room < filled then throw .outOfMemory
  return extents

/-- Whether a size asks for nothing, which its product tells. -/
def isNothing (size : Datum) : Except Fault Bool :=
  return (← size.product).number?.any (·.same (.int 0))

/-- Integers below bounds, as many as a size asks for. -/
def drawSized (bound size : Datum) : Action Permuted Datum := do
  if ← Action.ofExcept (isNothing size) then
    return .nest (← Action.ofExcept (extentsOf size)) []
  let bounds ← Action.ofExcept (Bounds.ofDatum bound)
  let extents ← Action.ofExcept (extentsOf size)
  return .nest extents (← drawEach (← Action.ofExcept (bounds.inRows extents)))

def drawAll (bound : Datum) : Action Permuted Datum := do
  let bounds ← Action.ofExcept (Bounds.ofDatum bound)
  if !bounds.reaches 0 then throw .tooDeep
  return .nest bounds.extents (← drawEach bounds.values)

end Permuted

namespace Rng

/-- Integers below bounds as they were handed over; null asks for no size. -/
def drawIntegers (bound size : Datum) : Action Rng Datum := fun g =>
  match g with
  | .scripted g =>
    match (match size with
      | .null => Scripted.drawBelow bound
      | size => Scripted.drawRow bound size) g with
    | .ok d g => .ok d (.scripted g)
    | .error f g => .error f (.scripted g)
  | .permuted g =>
    match (match size with
      | .null => Permuted.drawAll bound
      | size => Permuted.drawSized bound size) g with
    | .ok d g => .ok d (.permuted g)
    | .error f g => .error f (.permuted g)

end Rng
end TschLearning
