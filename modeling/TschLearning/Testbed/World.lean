import TschLearning.Deployer
import TschLearning.Draws.Rows
import TschLearning.Scenario.SlotSelection
import TschLearning.Simulation
import TschLearning.Testbed.Snapshot

/-! A testbed: components made one by one, wired to each other by name, and driven call by
call. Components that change live in the world and are known by a handle; those that do
not are values. -/

namespace TschLearning.Testbed

/-- A MAC layer, simulated or a stand-in, with its text in messages. -/
inductive MacRef where
  | simulated (handle : Nat) (label : String)
  | standIn (handle : Nat) (label : String)
deriving DecidableEq

namespace MacRef

def label : MacRef → String
  | .simulated _ label => label
  | .standIn _ label => label

end MacRef

/-- A receiver of the events of a device. -/
inductive SinkRef where
  | hopping (handle : Nat)
  | selection (handle : Nat)
  | recording (serial : Nat) (name : String) (overhears : Bool)
deriving DecidableEq

inductive ObserverRef where
  | statistics (handle : Nat)
  | recorder (serial : Nat) (name : String)
deriving DecidableEq

inductive MacCall where
  | deleteLink | addLink | setSequence | checkSequence | request
deriving DecidableEq

/-- A MAC layer that records what it is asked and answers as it was told. -/
structure StandInMac where
  name : String
  -- the answers that are left for each operation; it accepts once they are used up
  answers : List (MacCall × List (Option Fault))
  takesRequests : Bool

/-- Something that a callback does when it is called. -/
inductive CallbackAct where
  | nothing
  | fail (text : String)
  | unsubscribe (notifier callback : String)
  | subscribe (notifier callback : String) (priority : Datum)
  | trigger (notifier : String) (value : Datum)

/-- A callback that records its calls and does one of its acts at each. -/
structure Callback where
  name : String
  acts : List CallbackAct

/-- What is to be done step by step, each step after a delay and with a value. -/
abbrev Timetable := List (Datum × Datum)

inductive Process where
  | waiter (name : Datum) (notifier : String) (count : Datum)
  -- a waiter once the notifier was triggered
  | received (name : Datum) (notifier : String) (left : Nat)
  | triggerer (name : Datum) (notifier : String) (steps : Timetable)
  -- a triggerer once its delay is over
  | triggering (name : Datum) (notifier : String) (value : Datum) (steps : Timetable)
  | sleeper (name : Datum) (steps : Timetable)
  -- a sleeper once its delay is over
  | woken (name : Datum) (steps : Timetable)
  | network (handle : Nat)
  | pan (handle : Nat)
  | star (handle : Nat)

/-- The event that the next triggering of a notifier makes happen. -/
structure PendingEvent where
  serial : Nat
  -- the simulation that the event belongs to, zero if there was none
  generation : Nat
  triggered : Bool
  listeners : List (Listener Process)

/-- A notifier of callbacks, with its event once somebody asked for it. -/
structure NotifierUnit where
  notifier : Notifier Nat
  event : Option PendingEvent

structure GateUnit where
  gate : Activation
  owner : Datum

/-- A choice of channels: the table, the exploration rate as it was given, and the
generator. -/
structure ChannelChoice where
  table : Nat
  epsilon : Datum
  rng : Nat

structure SlotChoice where
  table : Nat
  peaking : Nat
  epsilon : Datum
  rng : Nat

structure HoppingUnit where
  scheduler : ChannelHopping Float
  deployer : Nat
  rng : Nat

structure SelectionUnit where
  scheduler : SlotSelection MacRef Float
  rng : Nat

structure NetworkUnit where
  network : Network Nat ObserverRef Float
  rng : Nat

/-- A channel-hopping scenario with the generator that it shares, if it does. -/
structure PanUnit where
  run : Network Nat Unit Float × Pan Rng Float
  shared : Option Nat

/-- A set of parameters. An undefined value is equal only to itself, also in a copy that
took it over; `origin` numbers the sets in which the values were given. -/
structure ParametersUnit where
  params : Parameters Float
  origin : ParameterName → Nat

inductive Object where
  | valueTable (handle : Nat)
  | outcomeTracker (handle : Nat)
  | peakingTable (handle : Nat)
  | parameters (unit : ParametersUnit)
  | schedule (schedule : EpsilonSchedule Datum)
  | rng (handle : Nat)
  | channelChoice (handle : Nat)
  | slotChoice (handle : Nat)
  | lookahead (params : Parameters Float)
  | slotReward (params : Parameters Float)
  | gate (handle : Nat)
  | sequence (sequence : HoppingSequence)
  | deployer (handle : Nat)
  | hopping (handle : Nat)
  | selection (handle : Nat)
  | mac (handle : Nat)
  | interference (model : Interference Float)
  | network (handle : Nat)
  | statistics (handle : Nat)
  | notifier (handle : Nat)
  | prepender (timed : Bool)
  | standInMac (handle : Nat)
  | recordingSink (serial : Nat) (name : String) (overhears : Bool)
  | callback (handle : Nat)

/-- Everything in a testbed but the agenda of its simulation. -/
structure World where
  tables : Array (ValueTable Float) := #[]
  trackers : Array OutcomeTracker := #[]
  peaks : Array (PeakingTable Float) := #[]
  rngs : Array Rng := #[]
  channelChoices : Array ChannelChoice := #[]
  slotChoices : Array SlotChoice := #[]
  gates : Array GateUnit := #[]
  deployers : Array (Deployer MacRef) := #[]
  hoppings : Array HoppingUnit := #[]
  selections : Array SelectionUnit := #[]
  macs : Array (Mac SinkRef) := #[]
  networks : Array NetworkUnit := #[]
  statistics : Array Statistics := #[]
  notifiers : Array NotifierUnit := #[]
  standIns : Array StandInMac := #[]
  callbacks : Array Callback := #[]
  pans : Array PanUnit := #[]
  stars : Array (Network Nat Unit Float × Star Rng Float) := #[]
  names : List (String × Object) := []
  generation : Nat := 0
  serial : Nat := 0
  log : Log := .fresh none
  records : List (List Snapshot) := []

end Testbed

abbrev Testbed := Simulation Testbed.Process Testbed.World

namespace Testbed

/-- A testbed without anything in it, whose log keeps entries from a level on. -/
def fresh (threshold : Option Level) : Testbed :=
  { agenda := .fresh, world := { log := .fresh threshold } }

/-- The time of the simulation, if one has been set up. -/
def clock? (t : Testbed) : Option Number :=
  if t.world.generation = 0 then none else some t.agenda.now

/-- Entries are made at the time of the simulation. -/
instance : Journal Testbed where
  enter n t := { t with world := { t.world with log := t.world.log.enter (clock? t) n } }
  obstacle? n t := t.world.log.obstacle? (clock? t) n

/-- Components of one kind, by handle. -/
def shelf {τ : Type} (get : World → Array τ) (put : Array τ → World → World) :
    Shelf Nat τ Testbed where
  get? i t := (get t.world)[i]?
  put i x t := { t with world := put ((get t.world).setIfInBounds i x) t.world }

def tables : Shelf Nat (ValueTable Float) Testbed :=
  shelf World.tables fun tables w => { w with tables }

def trackers : Shelf Nat OutcomeTracker Testbed :=
  shelf World.trackers fun trackers w => { w with trackers }

def peaks : Shelf Nat (PeakingTable Float) Testbed :=
  shelf World.peaks fun peaks w => { w with peaks }

def rngs : Shelf Nat Rng Testbed := shelf World.rngs fun rngs w => { w with rngs }

def channelChoices : Shelf Nat ChannelChoice Testbed :=
  shelf World.channelChoices fun channelChoices w => { w with channelChoices }

def slotChoices : Shelf Nat SlotChoice Testbed :=
  shelf World.slotChoices fun slotChoices w => { w with slotChoices }

def gates : Shelf Nat GateUnit Testbed := shelf World.gates fun gates w => { w with gates }

def deployers : Shelf Nat (Deployer MacRef) Testbed :=
  shelf World.deployers fun deployers w => { w with deployers }

def hoppings : Shelf Nat HoppingUnit Testbed :=
  shelf World.hoppings fun hoppings w => { w with hoppings }

def selections : Shelf Nat SelectionUnit Testbed :=
  shelf World.selections fun selections w => { w with selections }

def macs : Shelf Nat (Mac SinkRef) Testbed := shelf World.macs fun macs w => { w with macs }

def networks : Shelf Nat NetworkUnit Testbed :=
  shelf World.networks fun networks w => { w with networks }

def statistics : Shelf Nat Statistics Testbed :=
  shelf World.statistics fun statistics w => { w with statistics }

def notifiers : Shelf Nat NotifierUnit Testbed :=
  shelf World.notifiers fun notifiers w => { w with notifiers }

def standIns : Shelf Nat StandInMac Testbed :=
  shelf World.standIns fun standIns w => { w with standIns }

def callbacks : Shelf Nat Callback Testbed :=
  shelf World.callbacks fun callbacks w => { w with callbacks }

def panUnits : Shelf Nat PanUnit Testbed := shelf World.pans fun pans w => { w with pans }

/-- The channel-hopping scenarios without what they share. -/
def pans : Shelf Nat (Network Nat Unit Float × Pan Rng Float) Testbed where
  get? i t := (panUnits.get? i t).map PanUnit.run
  put i run t := match panUnits.get? i t with
    | some u => panUnits.put i { u with run } t
    | none => t

def stars : Shelf Nat (Network Nat Unit Float × Star Rng Float) Testbed :=
  shelf World.stars fun stars w => { w with stars }

def changeWorld (f : World → World) : Action Testbed Unit :=
  modify fun t => { t with world := f t.world }

def look : Action Testbed World := return (← get).world

def add {τ : Type} (get : World → Array τ) (put : Array τ → World → World) (x : τ) :
    Action Testbed Nat := do
  let row := get (← look)
  changeWorld (put (row.push x))
  return row.size

def nextSerial : Action Testbed Nat := do
  let n := (← look).serial
  changeWorld fun w => { w with serial := n + 1 }
  return n

def record (seen : List Snapshot) : Action Testbed Unit :=
  changeWorld fun w => { w with records := seen :: w.records }

def assign (name : String) (o : Object) : Action Testbed Unit :=
  changeWorld fun w => { w with names := (name, o) :: w.names.filter (·.1 != name) }

def find? (name : String) : Action Testbed (Option Object) := return (← look).names.lookup name

/-- What a name has to stand for. -/
def find (name : String) : Action Testbed Object := do
  match ← find? name with
  | some o => return o
  | none => throw .noObject

/-- What a name has to stand for, if that is to be of one kind. -/
def findAs {τ : Type} (kind : Object → Option τ) (name : String) : Action Testbed τ := do
  match kind (← find name) with
  | some x => return x
  | none => throw .noObject

def clock : Action Testbed Number := do
  match clock? (← get) with
  | some now => return now
  | none => throw .noSimulation

/-- The time of the simulation as a binary64 number. -/
def time : Action Testbed Float := do
  Action.ofExcept (Datum.ofNumber (← clock)).toFloat

/-- What was recorded and entered into the journal since the last time it was taken. -/
structure Findings where
  records : List (List Snapshot)
  entries : List (Option Number × Note)

/-- Takes out what was recorded and entered into the journal. -/
def takeFindings : Action Testbed Findings := do
  let w ← look
  changeWorld fun w => { w with records := [], log := .fresh w.log.threshold }
  return { records := w.records.reverse, entries := w.log.entries.reverse }

end Testbed
end TschLearning
