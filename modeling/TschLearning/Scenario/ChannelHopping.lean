import TschLearning.Deployer
import TschLearning.Network.Process
import TschLearning.Scenario.Result
import TschLearning.Scheduler.ChannelHopping
import TschLearning.Statistics

/-! A single network whose slotframe is shared by its devices in turn. A channel scheduler
learns a channel for every slot and deploys it to all devices. -/

namespace TschLearning

/-- The generators of a network and of its scheduler: one for both, or one each. -/
inductive Sources (ρ : Type) where
  | shared (g : ρ)
  | apart (network scheduler : ρ)

namespace Sources

variable {ρ : Type}

def network : Sources ρ → ρ
  | .shared g => g
  | .apart g _ => g

def scheduler : Sources ρ → ρ
  | .shared g => g
  | .apart _ g => g

def setNetwork (g : ρ) : Sources ρ → Sources ρ
  | .shared _ => .shared g
  | .apart _ s => .apart g s

def setScheduler (g : ρ) : Sources ρ → Sources ρ
  | .shared _ => .shared g
  | .apart n _ => .apart n g

end Sources

/-- The devices of a network that share one channel scheduler, with all that belongs to
them. Devices are known by their position. -/
structure Pan (ρ α : Type) where
  macs : Array (Mac Unit)
  scheduler : ChannelHopping α
  deployer : Deployer Nat
  sources : Sources ρ
  statistics : Statistics
  notes : List Note

instance {ρ α : Type} : Journal (Pan ρ α) where
  enter n p := { p with notes := n :: p.notes }

def deviceName (i : Nat) : String := "node" ++ toString (i + 1)

namespace Pan

variable {ρ α : Type}

def shelf : Shelf Nat (Mac Unit) (Pan ρ α) where
  get? i p := p.macs[i]?
  put i m p := { p with macs := p.macs.setIfInBounds i m }

def macAccess : MacAccess Nat (Pan ρ α) :=
  Mac.access shelf fun i => Mac.labelOf (.text (deviceName i))

def deploy (configuration : List Datum) : Action (Pan ρ α) Bool :=
  (Deployer.deploy macAccess (.channels configuration)).beside Pan.deployer
    fun deployer p => { p with deployer }

variable [Generator ρ α]

def needs : ChannelHopping.Needs (Pan ρ α) α where
  deploy := deploy
  draws := .ofGenerator (·.sources.scheduler)
    fun g p => { p with sources := p.sources.setScheduler g }

def inScheduler {β : Type} (x : Action (ChannelHopping α × Pan ρ α) β) : Action (Pan ρ α) β :=
  x.beside Pan.scheduler fun scheduler p => { p with scheduler }

variable [Arith α]

def surroundings : Surroundings Nat Unit Unit (Pan ρ α) α where
  macs := shelf
  draws := .ofGenerator (·.sources.network) fun g p => { p with sources := p.sources.setNetwork g }
  boundary _ asn := inScheduler (ChannelHopping.onSlotBoundary needs (.int asn))
  outcome _ slot channel success :=
    inScheduler (ChannelHopping.recordOutcome slot (.int channel) success)
  overheard _ _ := pure ()
  observe _ record := do
    let statistics ← Action.ofExcept ((← get).statistics.add record)
    modify fun p => { p with statistics }

def program : Program Unit (Network Nat Unit α × Pan ρ α) := Network.program surroundings

/-- Draws the first configuration of the scheduler. -/
def begin : Action (Pan ρ α) Unit := do
  let scheduler := (← get).scheduler
  let drawn ← scheduler.drawConfiguration needs.draws
  modify fun p => { p with scheduler := scheduler.startingWith drawn }

end Pan

/-- What a channel-hopping scenario is made of; the dimensions are as they were handed over. -/
structure ChannelHoppingScenario (α : Type) where
  nodes : Nat
  slots : Datum
  channels : Datum
  interference : Interference α
  traffic : Except Fault α
  params : Parameters α
  mode : DeployMode

namespace ChannelHoppingScenario

variable {ρ α : Type} [Arith α]

/-- The slots of the device at a position: every `nodes`-th one. -/
def ownedBy (nodes slots i : Nat) : List Datum :=
  Datum.ofNats ((List.range slots).filter fun s => s % nodes = i)

/-- A device at a position, attached to the scheduler. -/
def device (c : ChannelHoppingScenario α) (i : Nat) : Except Fault (Mac Unit) := do
  let mac : Mac Unit ← Mac.create (.text (deviceName i)) c.slots c.channels
    (some (ownedBy c.nodes (← c.slots.steps) i)) none
  return { mac with sink := some () }

/-- So many devices, from a position on. -/
def devices (c : ChannelHoppingScenario α) : Nat → Nat → Except Fault (List (Mac Unit))
  | 0, _ => .ok []
  | count + 1, i => do
    let mac ← c.device i
    return mac :: (← devices c count (i + 1))

def network (c : ChannelHoppingScenario α) : Except Fault (Network Nat Unit α) :=
  Network.create c.slots c.channels (some c.interference) (.ok slotLength) c.traffic

/-- The network with its devices and its scheduler. The first configuration is still to be
drawn. -/
def build (c : ChannelHoppingScenario α) (net : Network Nat Unit α) (sources : Sources ρ) :
    Except Fault (Network Nat Unit α × Pan ρ α) := do
  let macs ← c.devices c.nodes 0
  let scheduler ← ChannelHopping.create c.params (.text "PAN") .ofModule c.slots c.channels
  return ({ net with
      macs := List.range c.nodes
      started := true
      observers := net.observers.place () (.number (.int 0)) },
    { macs := macs.toArray, scheduler, deployer := .create c.mode (List.range c.nodes), sources,
      statistics := .empty, notes := [] })

end ChannelHoppingScenario

namespace Pan

variable {ρ α : Type}

def result (net : Network Nat Unit α) (p : Pan ρ α) : ScenarioResult where
  successes := p.scheduler.successes
  attempts := p.scheduler.attempts
  delay := 0
  confirmed := 0
  slots := net.asn

/-- What is said at the end of a run. -/
def conclude (p : Pan ρ α) {σ : Type} [Journal σ] : Action σ Unit := do
  Action.note (.ofScenario (.summary p.scheduler.label p.scheduler.successes p.scheduler.attempts))
  p.statistics.log

end Pan
end TschLearning
