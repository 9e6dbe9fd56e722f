import TschLearning.Testbed.Networks
import TschLearning.Testbed.Notifications

/-! The simulation of a testbed and its processes. -/

namespace TschLearning.Testbed

/-- Sets up a new simulation. Processes of an earlier one are left behind. -/
def setUp : Action Testbed Unit := do
  Action.note { topic := .simulation, timed := true, sender := none, remark := .simulationReset }
  Simulation.plan fun _ => .fresh
  changeWorld fun w => { w with generation := w.generation + 1 }

def startProcess (p : Process) : Action Testbed Unit := do
  let _ ← clock
  Simulation.plan (·.start p)

def startNetwork (handle : Nat) : Action Testbed Unit := do
  if (← networks.read handle).network.started then throw (.violated "network already started")
  startProcess (.network handle)
  changeNetwork handle fun net => .ok { net with started := true }

/-- Records what a process sees at the current time. -/
def recordNow (name : Datum) (what : String) (value : Datum) : Action Testbed Unit := do
  let now ← Action.ofExcept (Datum.ofNumber (← Simulation.now)).toFloat
  record [.value name, .text what, .float now, .value value]

/-- Waits for the notifier of a name as often as is left. -/
def awaitNotifier (name : Datum) (notifier : String) : Nat → Action Testbed (Pause Process)
  | 0 => return .ended
  | left + 1 => do
    listen (← notifierNamed notifier) (.wake (.received name notifier left))
    return .parked

def awaitStep (steps : Timetable) (sent : Datum → Datum) (next : Datum → Timetable → Process) :
    Action Testbed (Pause Process) :=
  match steps with
  | [] => return .ended
  | (delay, value) :: rest => do
    return .delay (← Action.ofExcept delay.comparable) (sent value) (next value rest)

/-- Runs the next slot of a ready-made simulation, whose notes go to the journal of the
testbed. -/
def advanceWorld {ω : Type} (shelf : Shelf Nat (Network Nat Unit Float × ω) Testbed)
    (advance : Action (Network Nat Unit Float × ω) Unit) (takeNotes : ω → List Note × ω)
    (handle : Nat) : Action Testbed Number := do
  let failed ← shelf.alone handle fun s =>
    match advance s with
    | .ok _ s => .ok none s
    | .error f s => .ok (some f) s
  let notes ← shelf.update handle fun (net, w) =>
    let (notes, w) := takeNotes w
    .ok (notes, net, w)
  notes.forM Action.note
  if let some f := failed then throw f
  Action.ofExcept (← shelf.read handle).1.slotDuration

def takePanNotes (p : Pan Rng Float) : List Note × Pan Rng Float :=
  (p.notes.reverse, { p with notes := [] })

def takeStarNotes (s : Star Rng Float) : List Note × Star Rng Float :=
  (s.notes.reverse, { s with notes := [] })

/-- Lets a scenario have the generator that it shares. -/
def lend (handle : Nat) : Action Testbed Unit := do
  if let some i := (← panUnits.read handle).shared then
    let g ← rngs.read i
    pans.update handle fun (net, pan) =>
      .ok ((), net, { pan with sources := pan.sources.setScheduler g })

def giveBack (handle : Nat) : Action Testbed Unit := do
  let u ← panUnits.read handle
  if let some i := u.shared then rngs.update i fun _ => .ok ((), u.run.2.sources.scheduler)

/-- Runs an operation on a scenario that has its generator meanwhile. -/
def withGenerator {β : Type} (handle : Nat) (x : Action Testbed β) : Action Testbed β := do
  lend handle
  let b ← try x
    catch f =>
      giveBack handle
      throw f
  giveBack handle
  return b

def resume (p : Process) (value : Datum) : Action Testbed (Pause Process) := do
  match p with
  | .waiter name notifier count =>
    awaitNotifier name notifier (← Action.ofExcept count.rounds)
  | .received name notifier left =>
    recordNow name "received" value
    awaitNotifier name notifier left
  | .triggerer name notifier steps =>
    awaitStep steps (fun _ => .null) (.triggering name notifier)
  | .triggering name notifier value steps =>
    recordNow name "triggering" value
    trigger (← notifierNamed notifier) value
    awaitStep steps (fun _ => .null) (.triggering name notifier)
  | .sleeper name steps => awaitStep steps id fun _ rest => .woken name rest
  | .woken name steps =>
    recordNow name "woke" value
    awaitStep steps id fun _ rest => .woken name rest
  | .network handle =>
    let _ ← runSlots handle 1
    return .delay (← Action.ofExcept (← networks.read handle).network.slotDuration) .null p
  | .pan handle =>
    return .delay (← withGenerator handle
      (advanceWorld pans (Network.advance Pan.surroundings) takePanNotes handle)) .null p
  | .star handle =>
    return .delay (← advanceWorld stars (Network.advance Star.surroundings) takeStarNotes handle)
      .null p

def resumptions (w : World) (span : Number) : Process → Nat
  | .waiter _ _ count => count.rounds.toOption.getD 0 + 1
  | .received _ _ left => left + 1
  | .triggerer _ _ steps | .sleeper _ steps | .woken _ steps => steps.length + 1
  | .triggering _ _ _ steps => steps.length + 1
  | .network i => (w.networks[i]?.map fun u => u.network.slotBound span).getD 0
  | .pan i => (w.pans[i]?.map fun u => u.run.1.slotBound span).getD 0
  | .star i => (w.stars[i]?.map fun s => s.1.slotBound span).getD 0

def listenersOf (u : NotifierUnit) : List (Listener Process) :=
  (u.event.map (·.listeners)).getD []

/-- A bound on the entries that callbacks and waiting processes make. -/
def reserve (w : World) : Nat :=
  w.notifiers.toList.foldl (fun n u => n + (listenersOf u).length) (actsLeft w)

def program : Program Process World where
  resume
  resumptions
  reserve

def runFor (duration : Datum) : Action Testbed Unit := do
  Simulation.announce
  match duration.number? with
  | none => throw (.violated "")
  | some d => do
    let _ ← clock
    Simulation.runFor program d

def runUntil (notifier : Nat) : Action Testbed Unit := do
  let e ← eventOf notifier
  Simulation.announce
  let _ ← clock
  listen notifier .stop
  match ← Simulation.runUntilStopped program with
  | .stopped | .unfinished => pure ()
  | .dry =>
    match (← notifiers.read notifier).event with
    | some now =>
      if now.serial = e.serial ∧ !now.triggered then throw .neverHappened
      else throw .happenedElsewhere
    | none => throw .happenedElsewhere

end TschLearning.Testbed
