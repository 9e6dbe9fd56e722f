import TschLearning.Testbed.World

/-! The generators of a testbed and the choices drawn from them. -/

namespace TschLearning.Testbed

/-- Where the draws of a component come from. -/
inductive Seed where
  | scripted (numbers : List Float)
  | seeded (seed : Datum)
  | shared (name : String)

/-- The handle of the generator of a seed: a new one unless it is shared. -/
def generatorOf (seed : Seed) : Action Testbed Nat := do
  let new (g : Rng) := add World.rngs (fun rngs w => { w with rngs }) g
  match seed with
  | .scripted numbers => new (.ofScript numbers)
  | .seeded s => new (← Action.ofExcept (Rng.ofSeed s))
  | .shared name =>
    match ← find? name with
    | some (.rng i) => return i
    | _ => throw .notAnInteger

def drawsFrom (handle : Nat) : Draws Testbed Float where
  uniform := rngs.alone handle Generator.drawUniform
  below n := rngs.alone handle (Generator.drawBelow n)

def drawsUsed (handle : Nat) : Action Testbed (Option Nat) := return (← rngs.read handle).used?

/-- A draw below a bound as it was handed over; rows of them if there is a size. -/
def drawIntegers (handle : Nat) (bound size : Datum) : Action Testbed Datum :=
  rngs.alone handle (Rng.drawIntegers bound size)

def newChannelChoice (table : Nat) (epsilon : Datum) (seed : Seed) : Action Testbed Object := do
  let rng ← generatorOf seed
  Action.ofExcept (Selection.checkEpsilon epsilon)
  return .channelChoice (← add World.channelChoices
    (fun channelChoices w => { w with channelChoices }) { table, epsilon, rng })

def newSlotChoice (table peaking : Nat) (epsilon : Datum) (seed : Seed) :
    Action Testbed Object := do
  let rng ← generatorOf seed
  if (← tables.read table).channels ≠ 1 then throw (.violated "")
  Action.ofExcept (Selection.checkEpsilon epsilon)
  return .slotChoice (← add World.slotChoices (fun slotChoices w => { w with slotChoices })
    { table, peaking, epsilon, rng })

def chooseChannel (handle : Nat) (slot : Datum) (mayExplore : Bool) : Action Testbed Int := do
  let c ← channelChoices.read handle
  let epsilon ← Action.ofExcept c.epsilon.toFloat
  Selection.chooseChannel (drawsFrom c.rng) (← tables.read c.table) epsilon slot mayExplore

def chooseSlot (handle : Nat) (mayExplore : Bool) : Action Testbed Nat := do
  let c ← slotChoices.read handle
  let epsilon ← Action.ofExcept c.epsilon.toFloat
  Selection.chooseSlot (drawsFrom c.rng) (← tables.read c.table) (← peaks.read c.peaking) epsilon
    mayExplore

def setChannelEpsilon (handle : Nat) (epsilon : Datum) : Action Testbed Unit :=
  channelChoices.update handle fun c => do
    Selection.checkEpsilon epsilon
    return ((), { c with epsilon })

def setSlotEpsilon (handle : Nat) (epsilon : Datum) : Action Testbed Unit :=
  slotChoices.update handle fun c => do
    Selection.checkEpsilon epsilon
    return ((), { c with epsilon })

end TschLearning.Testbed
