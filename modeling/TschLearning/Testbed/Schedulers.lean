import TschLearning.Testbed.Draws
import TschLearning.Testbed.Macs

/-! The schedulers of a testbed. -/

namespace TschLearning.Testbed

/-- The parameters of a scheduler; the defaults where none are given. -/
def paramsOr (given : Option (Parameters Float)) : Action Testbed (Parameters Float) :=
  match given with
  | some p => pure p
  | none => Action.ofExcept (Parameters.ofInput .defaults)

def newHopping (slots channels : Datum) (deployer : Nat) (params : Option (Parameters Float))
    (seed : Seed) (name : Datum) (voice : Voice) : Action Testbed Object := do
  let params ← paramsOr params
  let rng ← generatorOf seed
  let scheduler ← Action.ofExcept (ChannelHopping.create params name voice slots channels)
  let drawn ← scheduler.drawConfiguration (drawsFrom rng)
  return .hopping (← add World.hoppings (fun hoppings w => { w with hoppings })
    { scheduler := scheduler.startingWith drawn, deployer, rng })

def hoppingNeeds (u : HoppingUnit) : ChannelHopping.Needs Testbed Float where
  deploy items := deploy u.deployer (.channels items)
  draws := drawsFrom u.rng

def inHopping {β : Type} (handle : Nat)
    (x : ChannelHopping.Needs Testbed Float → Action (ChannelHopping Float × Testbed) β) :
    Action Testbed β := do
  let needs := hoppingNeeds (← hoppings.read handle)
  hoppings.run handle
    (Action.within HoppingUnit.scheduler (fun scheduler u => { u with scheduler }) (x needs))

def newSelection (node slots : Datum) (mac : MacRef) (params : Option (Parameters Float))
    (destination channelOffset : Datum) (seed : Seed) (voice : Voice) : Action Testbed Object := do
  let params ← paramsOr params
  let rng ← generatorOf seed
  let scheduler ← Action.ofExcept
    (SlotSelection.create params node slots mac destination channelOffset voice)
  let slot ← (drawsFrom rng).below scheduler.table.slots
  return .selection (← add World.selections (fun selections w => { w with selections })
    { scheduler := { scheduler with action := slot }, rng })

def selectionNeeds (u : SelectionUnit) : SlotSelection.Needs MacRef Testbed Float where
  macs := macAccess
  draws := drawsFrom u.rng

def inSelection {β : Type} (handle : Nat)
    (x : SlotSelection.Needs MacRef Testbed Float →
      Action (SlotSelection MacRef Float × Testbed) β) : Action Testbed β := do
  let needs := selectionNeeds (← selections.read handle)
  selections.run handle
    (Action.within SelectionUnit.scheduler (fun scheduler u => { u with scheduler }) (x needs))

def newRecordingSink (name : String) (overhears : Bool) : Action Testbed Object := do
  return .recordingSink (← nextSerial) name overhears

def sinkRef? : Object → Option SinkRef
  | .hopping i => some (.hopping i)
  | .selection i => some (.selection i)
  | .recordingSink serial name overhears => some (.recording serial name overhears)
  | _ => none

def deliverBoundary (sink : SinkRef) (asn : Datum) : Action Testbed Unit :=
  match sink with
  | .hopping i => inHopping i fun needs => ChannelHopping.onSlotBoundary needs asn
  | .selection i => inSelection i fun needs => SlotSelection.onSlotBoundary needs asn
  | .recording _ name _ => record [.text name, .text "slot_boundary", .plain asn]

def deliverOutcome (sink : SinkRef) (slot channel success : Datum) : Action Testbed Unit :=
  match sink with
  | .hopping i => inHopping i fun _ => ChannelHopping.recordOutcome slot channel success.truthy
  | .selection i =>
    inSelection i fun _ => SlotSelection.onTransmissionOutcome slot success.truthy
  | .recording _ name _ =>
    record [.text name, .text "outcome", .plain slot, .plain channel, .plain success]

def deliverOverheard (sink : SinkRef) (slot : Datum) : Action Testbed Unit :=
  match sink with
  | .hopping _ => pure ()
  | .selection i => inSelection i fun _ => SlotSelection.onOverheardActivity slot
  | .recording _ name overhears =>
    if overhears then record [.text name, .text "overheard", .plain slot] else pure ()

/-- Delivers the boundaries of so many slots, from a slot on. -/
def deliverFrom (sink : SinkRef) : Nat → Int → Action Testbed Unit
  | 0, _ => pure ()
  | count + 1, slot => do
    deliverBoundary sink (.int slot)
    deliverFrom sink count (slot + 1)

def deliverBoundaries (sink : SinkRef) (first last : Datum) : Action Testbed Unit := do
  let first ← Action.ofExcept first.whole
  let last ← Action.ofExcept last.whole
  deliverFrom sink (last - first).toNat first

/-- The items of a value that has a length, which a condition asks for. -/
def measuredItems (d : Datum) : Except Fault (List Datum) :=
  match d.items? with
  | some items => .ok items
  | none => .error (.noLength (Kind.ofDatum d))

/-- Deploys a configuration by a channel scheduler, a new policy if none is given. The deployer
is handed the configuration as it is, and the scheduler keeps its items. -/
def deployPolicy (handle : Nat) (configuration : Datum) : Action Testbed Bool := do
  let deployer := (← hoppings.read handle).deployer
  inHopping handle fun needs =>
    match configuration with
    | .null => ChannelHopping.deployPolicy needs
    | d => do
      let items ← Action.ofExcept (measuredItems d)
      ChannelHopping.deployConfiguration
        { needs with
          deploy := fun _ => do deploy deployer (← Action.ofExcept (configurationOf d)) }
        items

end TschLearning.Testbed
