import TschLearning.Datum.Nested
import TschLearning.Testbed.Labels
import TschLearning.Testbed.Schedulers

/-! The small components of a testbed: tables, update rules, gates and logs. -/

namespace TschLearning.Testbed

def newValueTable (slots channels : Datum) : Action Testbed Object := do
  let table ← Action.ofExcept (ValueTable.create slots channels)
  return .valueTable (← add World.tables (fun tables w => { w with tables }) table)

def newOutcomeTracker (slots channels : Datum) : Action Testbed Object := do
  let tracker ← Action.ofExcept (OutcomeTracker.create slots channels)
  return .outcomeTracker (← add World.trackers (fun trackers w => { w with trackers }) tracker)

def newPeakingTable (slots : Datum) : Action Testbed Object := do
  let table ← Action.ofExcept (PeakingTable.create slots)
  return .peakingTable (← add World.peaks (fun peaks w => { w with peaks }) table)

def updateValue (table : Nat) (slot channel value : Datum) : Action Testbed Unit :=
  tables.update table fun t => do
    -- the cell is looked up before the value is read
    let _ ← t.value slot channel
    return ((), ← t.update slot channel (← value.toCell))

def recordOutcome (tracker : Nat) (slot channel success : Datum) : Action Testbed Unit :=
  trackers.update tracker fun t =>
    return ((), ← OutcomeTracker.record t slot channel success.truthy)

def resetTracker (tracker : Nat) : Action Testbed Unit :=
  trackers.update tracker fun t => .ok ((), t.clear)

def bumpScore (table : Nat) (slot amount : Datum) : Action Testbed Unit :=
  peaks.update table fun t => do
    let _ ← t.checkSlot slot
    return ((), ← t.bump slot (← amount.toAddend))

def decayScores (table : Nat) (sigma : Datum) : Action Testbed Unit :=
  peaks.update table fun t => return ((), t.scale (← sigma.toFactors t.slots))

/-- The channels of a configuration for so many slots. Entries by name have none under a
slot. -/
def configuredItems (slots : Nat) (d : Datum) : Except Fault (List Datum) := do
  let items ← measuredItems d
  match d with
  | .dict _ => if items.length = slots then throw .missingKey else return items
  | _ => return items

def applyLookahead (params : Parameters Float) (table tracker : Nat) (configuration : Datum) :
    Action Testbed Unit := do
  let items ← Action.ofExcept (configuredItems (← tables.read table).slots configuration)
  let outcomes ← trackers.read tracker
  tables.run table (Lookahead.apply params outcomes items)

def applySlotReward (params : Parameters Float) (table : Nat) (slot success : Datum) :
    Action Testbed Float :=
  tables.run table (SlotReward.apply params slot success.truthy)

def newGate (threshold owner : Datum) : Action Testbed Object := do
  let gate ← Action.ofExcept (Activation.create threshold)
  return .gate (← add World.gates (fun gates w => { w with gates }) { gate, owner })

def epochPassed (handle : Nat) : Action Testbed Bool := do
  let owner := (← gates.read handle).owner
  gates.run handle (Action.within GateUnit.gate (fun gate u => { u with gate })
    (Settling.epochPassed fun a => if owner.truthy then owner.spoken else a.label))

/-- The parameters of the values given by name. -/
def parametersOf (given : List (String × Datum)) : Action Testbed (Parameters Float) :=
  Action.ofExcept (do Parameters.ofInput (← ParameterInput.ofEntries given))

def newParameters (given : List (String × Datum)) : Action Testbed Object := do
  let params ← parametersOf given
  let serial ← nextSerial
  return .parameters { params, origin := fun _ => serial }

def replaceParameters (u : ParametersUnit) (changes : List (String × Datum)) :
    Action Testbed Object := do
  let params ← Action.ofExcept (u.params.replace changes)
  let serial ← nextSerial
  return .parameters {
    params
    origin := fun n => if changes.any (·.1 == n.label) then serial else u.origin n }

def sameParameters (u v : ParametersUnit) : Bool :=
  ParameterName.all.all fun n =>
    let a := u.params.toInput n
    let b := v.params.toInput n
    Parameters.sameValue a b
      || (u.origin n == v.origin n && isUndefined a && isUndefined b)
where
  isUndefined (d : Datum) : Bool :=
    match d with
    | .float x => x.isNaN
    | _ => false

/-- Enters a text into the caller's own log. -/
def logText (timed : Bool) (level : Level) (template : Datum) (arguments : List Datum)
    (sender : Option Thing) : Action Testbed Unit := do
  let w ← look
  Action.note
    { topic := .custom, timed, sender := sender.map (·.spoken w),
      remark := .custom level template arguments }

end TschLearning.Testbed
