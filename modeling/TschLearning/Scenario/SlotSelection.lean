import TschLearning.Network.Process
import TschLearning.Scenario.ChannelHopping
import TschLearning.Scheduler.SlotSelection

/-! Devices on a single channel that send to a sink. Every device runs a scheduler of its
own, which learns the slot that the device sends in. -/

namespace TschLearning

/-- The devices that send to a sink, with all that belongs to them. Devices are known by
their position, and so are their schedulers. -/
structure Star (ρ α : Type) where
  macs : Array (Mac Nat)
  schedulers : Array (SlotSelection Nat α × ρ)
  source : ρ
  statistics : Statistics
  notes : List Note

instance {ρ α : Type} : Journal (Star ρ α) where
  enter n s := { s with notes := n :: s.notes }

namespace Star

variable {ρ α : Type}

def shelf : Shelf Nat (Mac Nat) (Star ρ α) where
  get? i s := s.macs[i]?
  put i m s := { s with macs := s.macs.setIfInBounds i m }

def schedulerShelf : Shelf Nat (SlotSelection Nat α × ρ) (Star ρ α) where
  get? i s := s.schedulers[i]?
  put i a s := { s with schedulers := s.schedulers.setIfInBounds i a }

/-- The name of the sending device at a position; the sink comes before them. -/
def senderName (i : Nat) : String := deviceName (i + 1)

def macAccess : MacAccess Nat (Star ρ α) :=
  Mac.access shelf fun i => Mac.labelOf (.text (senderName i))

variable [Generator ρ α] [Arith α]

/-- What a scheduler needs; its generator is beside it. -/
def needs : SlotSelection.Needs Nat (ρ × Star ρ α) α where
  macs := macAccess.outside
  draws := .ofGenerator (·.1) fun g s => (g, s.2)

def inScheduler {β : Type} (i : Nat)
    (x : Action (SlotSelection Nat α × ρ × Star ρ α) β) : Action (Star ρ α) β :=
  schedulerShelf.run i fun ((a, g), s) =>
    match x (a, g, s) with
    | .ok b (a, g, s) => .ok b ((a, g), s)
    | .error f (a, g, s) => .error f ((a, g), s)

def surroundings : Surroundings Nat Nat Unit (Star ρ α) α where
  macs := shelf
  draws := .ofGenerator Star.source fun source s => { s with source }
  boundary i asn := inScheduler i (SlotSelection.onSlotBoundary needs (.int asn))
  outcome i slot _ success :=
    inScheduler i (SlotSelection.onTransmissionOutcome slot success)
  overheard i slot := inScheduler i (SlotSelection.onOverheardActivity slot)
  observe _ record := do
    let statistics ← Action.ofExcept ((← get).statistics.add record)
    modify fun s => { s with statistics }

def program : Program Unit (Network Nat Unit α × Star ρ α) := Network.program surroundings

end Star

/-- What a slot-selection scenario is made of; the slots are as they were handed over. -/
structure SlotSelectionScenario (α : Type) where
  senders : Nat
  slots : Datum
  params : Parameters α

namespace SlotSelectionScenario

variable {ρ α : Type} [Arith α] [Generator ρ α]

def network (c : SlotSelectionScenario α) : Except Fault (Network Nat Unit α) :=
  Network.create c.slots (.int 1) none (.ok slotLength) (.ok 0)

def device (c : SlotSelectionScenario α) (i : Nat) : Except Fault (Mac Nat) := do
  let mac : Mac Nat ← Mac.create (.text (Star.senderName i)) c.slots (.int 1) none none
  return { mac with sink := some i }

/-- The scheduler at a position with its first slot drawn. -/
def scheduler (c : SlotSelectionScenario α) (i : Nat) (source : ρ) :
    Except Fault (SlotSelection Nat α × ρ) := do
  let a ← SlotSelection.create c.params (.int (i + 1)) c.slots i (.int 0) (.int 0) .ofModule
  let (slot, source) := Generator.below a.table.slots source
  return ({ a with action := ← slot }, source)

/-- The devices and schedulers from a position on; `seeded` gives the generators of the
schedulers. -/
def populate (c : SlotSelectionScenario α) (seeded : Nat → Except Fault ρ) :
    Nat → Nat → Except Fault (List (Mac Nat) × List (SlotSelection Nat α × ρ))
  | 0, _ => .ok ([], [])
  | count + 1, i => do
    let mac ← c.device i
    let a ← c.scheduler i (← seeded i)
    let (macs, schedulers) ← populate c seeded count (i + 1)
    return (mac :: macs, a :: schedulers)

def build (c : SlotSelectionScenario α) (net : Network Nat Unit α) (source : ρ)
    (seeded : Nat → Except Fault ρ) : Except Fault (Network Nat Unit α × Star ρ α) := do
  let (macs, schedulers) ← c.populate seeded c.senders 0
  return ({ net with
      macs := List.range c.senders
      started := true
      observers := net.observers.place () (.number (.int 0)) },
    { macs := macs.toArray, schedulers := schedulers.toArray, source, statistics := .empty,
      notes := [] })

end SlotSelectionScenario

namespace Star

variable {ρ α : Type}

def total (s : Star ρ α) (count : SlotSelection Nat α → Nat) : Nat :=
  s.schedulers.foldl (fun n e => n + count e.1) 0

def result (net : Network Nat Unit α) (s : Star ρ α) : ScenarioResult where
  successes := s.total SlotSelection.successes
  attempts := s.total SlotSelection.attempts
  delay := s.total SlotSelection.delay
  confirmed := s.total SlotSelection.successes
  slots := net.asn

def conclude (net : Network Nat Unit α) (s : Star ρ α) {σ : Type} [Journal σ] :
    Action σ Unit := do
  s.schedulers.toList.forM fun e =>
    Action.note (.ofScenario (.summary e.1.summaryLabel e.1.successes e.1.attempts))
  let r := s.result net
  Action.note (.ofScenario (.totalRate r.successes r.attempts))

end Star
end TschLearning
