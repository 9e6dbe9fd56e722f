import TschLearning.Learning
import TschLearning.Scheduler.Settling
import TschLearning.Selection

/-! The channel scheduler of a whole network. At every slotframe boundary it rewards
the channel deployed in every slot, clears the recorded outcomes, chooses a channel for
every slot and deploys the choice. It learns nothing from the slotframes that pass while
it settles, nor before a first configuration is deployed. -/

namespace TschLearning

/-- Where the entries of a scheduler go. -/
structure Voice where
  topic : Topic
  timed : Bool

def Voice.ofModule : Voice := ⟨.controller, true⟩

/-- A channel scheduler. -/
structure ChannelHopping (α : Type) where
  params : Parameters α
  name : Datum
  voice : Voice
  table : ValueTable α
  outcomes : OutcomeTracker
  activation : Activation
  -- the channels deployed last, at first those drawn to begin with
  configuration : List Datum
  deployed : Bool
  asn : Option Nat
  epochs : Nat
  successes : Nat
  attempts : Nat

namespace ChannelHopping

variable {σ α : Type}

structure Needs (σ α : Type) where
  deploy : List Datum → Action σ Bool
  draws : Draws σ α

/-- A scheduler with an empty table. Its first configuration is still to be drawn. -/
def create [Zero α] (params : Parameters α) (name : Datum) (voice : Voice)
    (slots channels : Datum) : Except Fault (ChannelHopping α) := do
  let table ← ValueTable.create slots channels
  return {
    params, name, voice, table
    outcomes := Grid.empty table.slots table.channels false
    activation := ← Activation.create (.int params.deactivationThreshold)
    configuration := []
    deployed := false
    asn := none
    epochs := 0
    successes := 0
    attempts := 0 }

/-- The scheduler with its first configuration. -/
def startingWith (c : ChannelHopping α) (channels : List Int) : ChannelHopping α :=
  { c with configuration := Datum.ofInts channels }

def ownerLabel : String := "<ChannelHoppingController>"

def label (c : ChannelHopping α) : String :=
  "ChannelHoppingController('" ++ c.name.spoken ++ "')"

def active (c : ChannelHopping α) : Bool := c.activation.active

def successRate (c : ChannelHopping α) : Float := TschLearning.successRate c.successes c.attempts

def summary (c : ChannelHopping α) : String := summaryText c.label c.successes c.attempts

def counting (c : ChannelHopping α) (success : Bool) : ChannelHopping α :=
  { c with
    attempts := c.attempts + 1
    successes := if success then c.successes + 1 else c.successes }

def drawConfiguration (draws : Draws σ α) (c : ChannelHopping α) : Action σ (List Int) :=
  draws.row c.table.channels c.table.slots

variable [Journal σ] [Arith α]

/-- Enters a remark of the scheduler itself. -/
def remark (r : Remark) : Action (ChannelHopping α × σ) Unit := do
  let c ← Action.part
  Action.note
    { topic := c.voice.topic, timed := c.voice.timed, sender := some c.label, remark := r }

def chooseAction (needs : Needs σ α) (slot : Datum) : Action (ChannelHopping α × σ) Int := do
  let c ← Action.part
  Selection.chooseChannel needs.draws.outside c.table c.params.epsilon slot
    (c.active || c.params.exploreWhileSettling)

def chooseEach (needs : Needs σ α) : List Nat → Action (ChannelHopping α × σ) (List Int)
  | [] => pure []
  | slot :: rest => do
    let channel ← chooseAction needs (.int slot)
    return channel :: (← chooseEach needs rest)

/-- Chooses a channel for every slot. -/
def computePolicy (needs : Needs σ α) : Action (ChannelHopping α × σ) (List Int) := do
  chooseEach needs (List.range (← Action.part).table.slots)

/-- Enters the outcome of a transmission. It counts for learning only once the scheduler
has settled. -/
def recordOutcome (slot channel : Datum) (success : Bool) : Action (ChannelHopping α × σ) Unit := do
  let c ← Action.part
  let s ← Action.ofExcept (checkIndex (possessive ownerLabel) "slot" c.table.slots slot)
  let ch ← Action.ofExcept (checkIndex (possessive ownerLabel) "channel" c.table.channels channel)
  Action.change (·.counting success)
  if !c.active then
    remark (.outcomeDiscarded s ch)
  else
    remark (.outcomeReported success ch s)
    let outcomes ← Action.ofExcept (c.outcomes.record (.int s) (.int ch) success)
    Action.change fun c => { c with outcomes }

/-- Deploys a configuration. The one in use is only replaced if the new one is
accepted. -/
def deployConfiguration (needs : Needs σ α) (configuration : List Datum) :
    Action (ChannelHopping α × σ) Bool := do
  let c ← Action.part
  if configuration.length ≠ c.table.slots then
    throw (.violated "")
  if ← (needs.deploy configuration).outside then
    Action.change fun c => { c with configuration, deployed := true }
    remark (.configurationDeployed configuration)
    return true
  else
    remark (.configurationKept c.configuration)
    return false

def deployPolicy (needs : Needs σ α) : Action (ChannelHopping α × σ) Bool := do
  let policy ← computePolicy needs
  deployConfiguration needs (Datum.ofInts policy)

/-- Counts a slotframe boundary while the scheduler settles. -/
def settle : Action (ChannelHopping α × σ) Unit := do
  let who := (← Action.part).label
  let _ ← Action.within ChannelHopping.activation (fun activation c => { c with activation })
    (Settling.epochPassed fun _ => who)

/-- Learns from the outcomes of the slotframe that has ended. -/
def learn : Action (ChannelHopping α × σ) Unit := do
  let c ← Action.part
  if !c.deployed then remark .nothingToLearnFrom
  else
    Action.within ChannelHopping.table (fun table c => { c with table })
      (Lookahead.apply c.params c.outcomes c.configuration)

/-- Closes the current slotframe: learns from it if settled, and deploys a new policy. -/
def updateEpoch (needs : Needs σ α) : Action (ChannelHopping α × σ) Unit := do
  Action.change fun c => { c with epochs := c.epochs + 1 }
  let learning := (← Action.part).active
  if learning then learn
  Action.change fun c => { c with outcomes := c.outcomes.clear }
  let _ ← deployPolicy needs
  if !learning then settle

/-- Handles the start of a slot. The first one deploys the first configuration; every
later one that starts a slotframe closes the slotframe before. -/
def onSlotBoundary (needs : Needs σ α) (absoluteSlot : Datum) :
    Action (ChannelHopping α × σ) Unit := do
  let asn ← Action.ofExcept (checkSlotNumber absoluteSlot)
  let c ← Action.part
  if let some last := c.asn then
    if asn ≤ last then throw (.slotNumberNotLater c.label asn last)
  Action.change fun c => { c with asn := some asn }
  if c.asn.isNone then
    let _ ← deployConfiguration needs c.configuration
  if 0 < asn ∧ asn % c.table.slots = 0 then updateEpoch needs

end ChannelHopping
end TschLearning
