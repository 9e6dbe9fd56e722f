import TschLearning.Arith
import TschLearning.Datum.Nested
import TschLearning.Draws

/-! External interference: the probability, channel by channel, that a transmission
fails. -/

namespace TschLearning

/-- The failure probability of every channel. -/
structure Interference (α : Type) where
  probabilities : List α

namespace Interference

def create (given : Datum) : Except Fault (Interference Float) := do
  let some extents := given.extents? | throw .unreadable
  let probabilities ← given.leaves.mapM Datum.toCell
  match extents with
  | [_ + 1] =>
    if probabilities.any fun p => p < 0.0 || p > 1.0 then throw .failureProbabilityRange
    return ⟨probabilities⟩
  | _ => throw .noFailureProbabilities

/-- The most channels that a model can be made for. -/
def channelLimit : Int := 0x10000000

variable {σ α : Type} [Arith α]

/-- The model of so many channels without any interference. -/
def clearFor (channels : Int) : Except Fault (Interference α) :=
  if channels ≤ 0 then .error .noFailureProbabilities else .ok ⟨.replicate channels.toNat 0⟩

def clear : Datum → Except Fault (Interference α)
  | .int i =>
    if !Word.isSigned i then .error .tooLarge
    else if channelLimit < i then .error .outOfMemory
    else clearFor i
  | .bool b => clearFor (if b then 1 else 0)
  | _ => .error .notAnInteger

def channels (m : Interference α) : Nat := m.probabilities.length

/-- The failure probability at a position; negative ones count from the end. -/
def probability? (m : Interference α) (channel : Int) : Option α :=
  let i := if channel < 0 then channel + m.channels else channel
  if i < 0 then none else m.probabilities[i.toNat]?

/-- The one probability of a row. -/
def only : List α → Except Fault α
  | [p] => .ok p
  | _ => .error .unreadable

/-- The failure probability at a position that has to be one. -/
def probabilityAt (m : Interference α) (channel : Int) : Except Fault α :=
  match m.probability? channel with
  | some p => .ok p
  | none => .error .positionOutOfRange

/-- The one failure probability that a row picks out: by truth values, one for each channel, or
by positions, which may stand in nested rows. Positions without a sign wrap. -/
def pickByRow (m : Interference α) (row : Datum) : Except Fault α := do
  let some extents := row.extents? | throw .unreadable
  let leaves := row.leaves
  if leaves.isEmpty then throw .unreadable
  match row.rowKind with
  | .truths =>
    if extents = [m.channels] then
      only ((m.probabilities.zip leaves).filterMap fun e => if e.2.truthy then some e.1 else none)
    else throw .positionOutOfRange
  | .signed | .unsigned =>
    only (← row.alike.mapM fun d => do m.probabilityAt (Word.signed (← d.whole)))
  | _ => throw .positionOutOfRange

/-- The one failure probability that a value picks out. Null and truth pick all of them, and
falsehood none. -/
def pick (m : Interference α) : Datum → Except Fault α
  | .int i =>
    if Word.fits i && !Word.isSigned i then .error .tooLarge else m.probabilityAt i
  | .null | .bool true => only m.probabilities
  | .bool false => .error .unreadable
  | .list items => m.pickByRow (.list items)
  | _ => .error .positionOutOfRange

/-- Draws whether a transmission is disturbed on the channel that a value picks out. -/
def disturbed (draws : Draws σ α) (m : Interference α) (channel : Datum) : Action σ Bool := do
  let u ← draws.uniform
  return Arith.lt u (← Action.ofExcept (m.pick channel))

end Interference
end TschLearning
