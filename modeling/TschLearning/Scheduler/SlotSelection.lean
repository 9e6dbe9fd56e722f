import TschLearning.Annealing
import TschLearning.Deployer.Link
import TschLearning.Scheduler.ChannelHopping

/-! The scheduler of a single device, which learns the slot to transmit in. At every
slotframe boundary it lets the collision-peaking scores decay, chooses a slot, moves its
link there and requests a transmission with some probability. Every outcome updates the
value of the slot that it happened in. The exploration rate is annealed at every slot. -/

namespace TschLearning

/-- A slot scheduler; `μ` are the handles of MAC layers. -/
structure SlotSelection (μ α : Type) where
  params : Parameters α
  node : Datum
  destination : Datum
  channelOffset : Datum
  mac : μ
  voice : Voice
  table : ValueTable α
  peaking : PeakingTable α
  epsilon : α
  activation : Activation
  deployer : LinkDeployer μ
  action : Int
  asn : Option Nat
  -- the slot number of the request that is still to be confirmed
  requested : Option Nat
  successes : Nat
  attempts : Nat
  delay : Nat

namespace SlotSelection

variable {σ μ α : Type}

structure Needs (μ σ α : Type) where
  macs : MacAccess μ σ
  draws : Draws σ α

/-- A scheduler with an empty table. Its first slot is still to be drawn. -/
def create [Arith α] (params : Parameters α) (node : Datum) (slots : Datum) (mac : μ)
    (destination channelOffset : Datum) (voice : Voice) : Except Fault (SlotSelection μ α) := do
  let table ← ValueTable.create slots (.int 1)
  return {
    params, node, destination, channelOffset, mac, voice, table
    peaking := ⟨.replicate table.slots 0⟩
    epsilon := params.epsilon
    activation := ← Activation.create (.int params.deactivationThreshold)
    deployer := .create [mac]
    action := 0
    asn := none
    requested := none
    successes := 0
    attempts := 0
    delay := 0 }

def ownerLabel : String := "<SlotSelectionAgent>"

def label (a : SlotSelection μ α) : String := "SlotSelectionAgent(" ++ a.node.spoken ++ ")"

def active (a : SlotSelection μ α) : Bool := a.activation.active

def successRate (a : SlotSelection μ α) : Float := TschLearning.successRate a.successes a.attempts

/-- The mean number of slots from request to confirmation. -/
def meanDelay (a : SlotSelection μ α) : Except Fault Float :=
  TschLearning.meanDelay a.delay a.successes

def summaryLabel (a : SlotSelection μ α) : String := "Node " ++ a.node.spoken

def summary (a : SlotSelection μ α) : String := summaryText a.summaryLabel a.successes a.attempts

variable [Journal σ] [Arith α]

def remark (r : Remark) : Action (SlotSelection μ α × σ) Unit := do
  let a ← Action.part
  Action.note
    { topic := a.voice.topic, timed := a.voice.timed, sender := some a.label, remark := r }

def chooseAction (needs : Needs μ σ α) : Action (SlotSelection μ α × σ) Nat := do
  let a ← Action.part
  Selection.chooseSlot needs.draws.outside a.table a.peaking a.epsilon
    (a.active || a.params.exploreWhileSettling)

def settle : Action (SlotSelection μ α × σ) Unit := do
  let who := (← Action.part).label
  let _ ← Action.within SlotSelection.activation (fun activation a => { a with activation })
    (Settling.epochPassed fun _ => who)

/-- Asks the MAC layer to send a packet to the destination. -/
def requestTransmission (needs : Needs μ σ α) : Action (SlotSelection μ α × σ) Unit := do
  Action.change fun a => { a with attempts := a.attempts + 1, requested := a.asn }
  let a ← Action.part
  remark (.transmissionRequested a.params.packetSize a.destination)
  (needs.macs.request a.mac a.destination a.params.packetSize).outside

/-- The schedule with the one link of the device. -/
def linkIn (a : SlotSelection μ α) (slot : Nat) : Except Fault Links :=
  LinkDeployer.linksOfPairs [(.int slot, a.channelOffset)]

/-- Moves the link of the device to a slot; if that is refused, it stays where it is. -/
def move (needs : Needs μ σ α) (slot : Nat) : Action (SlotSelection μ α × σ) Unit := do
  let a ← Action.part
  let links ← Action.ofExcept (a.linkIn slot)
  let accepted ← Action.within SlotSelection.deployer (fun deployer a => { a with deployer })
    (LinkDeployer.deploy needs.macs links)
  if accepted then Action.change fun a => { a with action := slot }
  else remark (.slotKept a.action)

/-- The annealed exploration rate of a slot, checked. -/
def annealed (a : SlotSelection μ α) (asn : Nat) : Except Fault α := do
  let rate ← (EpsilonSchedule.mk a.params.epsilonScale a.params.epsilonCap).rate asn
  if !Arith.isProbability rate then throw (.notAProbability "epsilon" (Arith.shown rate))
  return rate

/-- Starts a slotframe. -/
def startSlotframe (needs : Needs μ σ α) (asn : Nat) : Action (SlotSelection μ α × σ) Unit := do
  if 0 < asn then settle
  Action.change fun a => { a with peaking := a.peaking.decay a.params.sigma }
  let slot ← chooseAction needs
  move needs slot
  let u ← needs.draws.uniform.outside
  if Arith.lt u (← Action.part).params.packetProbability then requestTransmission needs

def onSlotBoundary (needs : Needs μ σ α) (absoluteSlot : Datum) :
    Action (SlotSelection μ α × σ) Unit := do
  let asn ← Action.ofExcept (checkSlotNumber absoluteSlot)
  let a ← Action.part
  if let some last := a.asn then
    if asn ≤ last then throw (.slotNumberNotLater a.label asn last)
  Action.change fun a => { a with asn := some asn }
  let epsilon ← Action.ofExcept (a.annealed asn)
  Action.change fun a => { a with epsilon }
  if asn % a.table.slots = 0 then startSlotframe needs asn

/-- The scheduler once a success has been counted. The first success after a request
confirms it. -/
def confirmed (a : SlotSelection μ α) : SlotSelection μ α :=
  let a := { a with successes := a.successes + 1 }
  match a.requested, a.asn with
  | some requested, some asn => { a with delay := a.delay + (asn - requested), requested := none }
  | _, _ => a

def onTransmissionOutcome (slot : Datum) (success : Bool) :
    Action (SlotSelection μ α × σ) Unit := do
  let a ← Action.part
  let s ← Action.ofExcept (checkIndex (possessive ownerLabel) "slot" a.table.slots slot)
  if success then Action.change confirmed
  if !a.active then
    remark (.slotOutcomeDiscarded s)
  else
    let _ ← Action.within SlotSelection.table (fun table a => { a with table })
      (SlotReward.apply a.params (.int s) success)

def onOverheardActivity (slot : Datum) : Action (SlotSelection μ α × σ) Unit := do
  let a ← Action.part
  let peaking ← Action.ofExcept (a.peaking.bump slot 1)
  Action.change fun a => { a with peaking }

end SlotSelection
end TschLearning
