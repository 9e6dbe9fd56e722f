import TschLearning.Agenda
import TschLearning.Journal

/-! Discrete-event simulation. Processes run on a world until they wait for a delay or
for an event; the agenda says which goes on when. A process that fails takes its fault
to the agenda, and the run ends with it when its time comes. -/

namespace TschLearning

/-- How a process leaves off. -/
inductive Pause (π : Type) where
  | delay (duration : Number) (value : Datum) (next : π)
  | parked
  | ended

structure Simulation (π ω : Type) where
  agenda : Agenda Fault π
  world : ω

instance {π ω : Type} [Journal ω] : Journal (Simulation π ω) where
  enter n s := { s with world := Journal.enter n s.world }
  obstacle? n s := Journal.obstacle? n s.world

/-- How processes run, and bounds on how long they can go on. -/
structure Program (π ω : Type) where
  resume : π → Datum → Action (Simulation π ω) (Pause π)
  resumptions : ω → Number → π → Nat
  -- a bound on the entries that come from elsewhere in the world
  reserve : ω → Nat

/-- How a run ends. -/
inductive RunEnd where
  | stopped
  | dry
  | unfinished
deriving DecidableEq, Repr

namespace Simulation

variable {π ω β : Type}

def inWorld (x : Action ω β) : Action (Simulation π ω) β := fun s =>
  match x s.world with
  | .ok b w => .ok b { s with world := w }
  | .error f w => .error f { s with world := w }

def plan (f : Agenda Fault π → Agenda Fault π) : Action (Simulation π ω) Unit := fun s =>
  .ok () { s with agenda := f s.agenda }

def now : Action (Simulation π ω) Number := fun s => .ok s.agenda.now s

/-- The agenda after a process has left off for a duration. A process that waits for a time
before now or for one beyond all numbers fails. -/
def afterDelay (duration : Number) (value : Datum) (next : π) (a : Agenda Fault π) :
    Agenda Fault π :=
  if duration.lt (.int 0) then a.scheduleNow false (.error .negativeDelay)
  else match a.now.add? duration with
    | some time => a.schedule time false (.ok (.resume next value))
    | none => a.scheduleNow false (.error .tooLarge)

def leaveOff : Pause π → Action (Simulation π ω) Unit
  | .delay duration value next => plan (afterDelay duration value next)
  | .parked => pure ()
  | .ended => plan (·.scheduleNow false (.ok .ended))

/-- Runs a process until it leaves off or fails. -/
def goOn (prog : Program π ω) (p : π) (value : Datum) : Action (Simulation π ω) Unit := fun s =>
  match prog.resume p value s with
  | .ok pause s => leaveOff pause s
  | .error f s => plan (·.scheduleNow false (.error f)) s

/-- Tells listeners in turn of an event; gives whether the run ends with it. -/
def tell (prog : Program π ω) (value : Datum) :
    List (Listener π) → Action (Simulation π ω) Bool
  | [] => pure false
  | .stop :: _ => pure true
  | .wake p :: rest => do
    goOn prog p value
    tell prog value rest

/-- Lets happen what an entry says; gives whether the run ends with it. -/
def perform (prog : Program π ω) : Cue π → Action (Simulation π ω) Bool
  | .resume p value => do
    goOn prog p value
    return false
  | .occurred value listeners => tell prog value listeners
  | .stop => pure true
  | .ended => pure false

/-- Lets the next entry happen; gives whether the run ends with it, and how. -/
def step (prog : Program π ω) : Action (Simulation π ω) (Option RunEnd) := fun s =>
  match s.agenda.next? with
  | none => .ok (some .dry) s
  | some (.error f, agenda) => .error f { s with agenda }
  | some (.ok cue, agenda) =>
    ((if · then some RunEnd.stopped else none) <$> perform prog cue) { s with agenda }

/-- Lets entries happen until the run ends, at most so many. -/
def runSteps (prog : Program π ω) : Nat → Action (Simulation π ω) RunEnd
  | 0 => pure .unfinished
  | n + 1 => do
    match ← step prog with
    | some ending => return ending
    | none => runSteps prog n

/-- The processes that an entry lets go on. -/
def processesOf : Except Fault (Cue π) → List π
  | .ok (.resume p _) => [p]
  | .ok (.occurred _ listeners) =>
    listeners.filterMap fun
      | .wake p => some p
      | .stop => none
  | _ => []

/-- A bound on the number of entries that happen within a span of time: each time a
process goes on it enters at most two, one for itself and one for an event. Entries at times
that are no numbers can come back as often as others happen. -/
def stepBound (prog : Program π ω) (span : Number) (s : Simulation π ω) : Nat :=
  (s.agenda.queue.length + 1) * s.agenda.queue.foldl
    (fun n e => (processesOf e.cue).foldl
      (fun n p => n + 2 * prog.resumptions s.world span p + 2) (n + 2))
    (prog.reserve s.world + 2)

/-- The number of entries that a run waits for even where no bound on them is known. -/
def patience : Nat := 0x1000000000000

def announce [Journal (Simulation π ω)] : Action (Simulation π ω) Unit :=
  Action.note { topic := .simulation, timed := true, sender := none, remark := .simulationRunning }

/-- Runs the simulation for a duration. What is due exactly at its end is left. -/
def runFor (prog : Program π ω) (duration : Number) :
    Action (Simulation π ω) Unit := do
  let start ← now
  let some finish := start.add? duration | throw .tooLarge
  if finish.le start then throw .notInFuture
  plan (·.schedule (start.add (finish.sub start)) true (.ok .stop))
  let bound := stepBound prog duration (← get)
  let _ ← runSteps prog (bound + patience)

/-- Runs the simulation for a duration that a caller hands over. -/
def run [Journal (Simulation π ω)] (prog : Program π ω) (duration : Datum) :
    Action (Simulation π ω) Unit := do
  announce
  match duration.number? with
  | some d => runFor prog d
  | none => throw (.violated "")

/-- Runs the simulation until a listener stops it; gives how the run ended. -/
def runUntilStopped (prog : Program π ω) : Action (Simulation π ω) RunEnd :=
  runSteps prog patience

end Simulation
end TschLearning
