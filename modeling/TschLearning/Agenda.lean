import TschLearning.Heap
import TschLearning.Number
import TschLearning.Datum

/-! The agenda of a simulation: what is to happen at which time. Entries of one time
happen in the order of their urgency and then in the order of entry. A time that is no number
comes neither before nor after another one. -/

namespace TschLearning

/-- Who waits for an event: a process `π` to be resumed, or whoever runs the simulation. -/
inductive Listener (π : Type) where
  | wake (p : π)
  | stop

/-- What can happen. -/
inductive Cue (π : Type) where
  | resume (p : π) (value : Datum)
  | occurred (value : Datum) (listeners : List (Listener π))
  | stop
  | ended

/-- An entry; a failed process is carried to its time by its fault `ε`. Entries are numbered in
the order of entry. -/
structure Entry (ε π : Type) where
  time : Number
  urgent : Bool
  serial : Nat
  cue : Except ε (Cue π)

def Entry.before {ε π : Type} (e f : Entry ε π) : Bool :=
  if e.time.same f.time then
    if e.urgent = f.urgent then decide (e.serial < f.serial) else e.urgent
  else e.time.lt f.time

/-- The agenda at a time, a heap of the entries to come, and the number of all so far. -/
structure Agenda (ε π : Type) where
  now : Number
  queue : List (Entry ε π)
  entered : Nat

namespace Agenda

variable {ε π : Type}

def fresh : Agenda ε π := ⟨.int 0, [], 0⟩

def schedule (a : Agenda ε π) (time : Number) (urgent : Bool) (cue : Except ε (Cue π)) :
    Agenda ε π :=
  { a with
    queue := Heap.enter Entry.before ⟨time, urgent, a.entered, cue⟩ a.queue
    entered := a.entered + 1 }

/-- What happens next, and the agenda at that time. -/
def next? (a : Agenda ε π) : Option (Except ε (Cue π) × Agenda ε π) :=
  (Heap.takeFirst Entry.before a.queue).map fun (e, queue) =>
    (e.cue, { a with now := e.time, queue })

def scheduleNow (a : Agenda ε π) (urgent : Bool) (cue : Except ε (Cue π)) : Agenda ε π :=
  a.schedule a.now urgent cue

/-- Enters a process that starts at once. -/
def start (a : Agenda ε π) (p : π) : Agenda ε π := a.scheduleNow true (.ok (.resume p .null))

end Agenda
end TschLearning
