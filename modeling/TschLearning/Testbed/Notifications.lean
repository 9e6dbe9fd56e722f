import TschLearning.Testbed.World

/-! Notifiers of a testbed. Triggering one calls its callbacks, as they were subscribed when
it began, and then makes its event happen. Callbacks can subscribe, unsubscribe and trigger
in turn; each act is done once, so this comes to an end. -/

namespace TschLearning.Testbed

def newNotifier (name : Datum) (owner : String) : Action Testbed Object := do
  return .notifier (← add World.notifiers (fun notifiers w => { w with notifiers })
    { notifier := .create name owner, event := none })

def newCallback (name : String) (acts : List CallbackAct) : Action Testbed Object := do
  return .callback (← add World.callbacks (fun callbacks w => { w with callbacks }) ⟨name, acts⟩)

/-- The notifier of a name. Nothing else can be triggered or waited for. -/
def notifierNamed (name : String) : Action Testbed Nat := do
  match ← find name with
  | .notifier i => return i
  | _ => throw .noSuchOperation

def callbackNamed : String → Action Testbed Nat :=
  findAs fun
    | .callback i => some i
    | _ => none

def inNotifier (notifier : Nat) (x : Action (Notifier Nat) Unit) : Action Testbed Unit :=
  notifiers.alone notifier (x.alone NotifierUnit.notifier fun notifier u => { u with notifier })

def subscribe (notifier callback : Nat) (priority : Datum) : Action Testbed Unit :=
  inNotifier notifier (Notifier.subscribe callback priority)

def unsubscribe (notifier callback : Nat) : Action Testbed Unit :=
  inNotifier notifier (Notifier.unsubscribe callback)

/-- The event that the next triggering of a notifier makes happen. -/
def eventOf (notifier : Nat) : Action Testbed PendingEvent := do
  match (← notifiers.read notifier).event with
  | some e => return e
  | none =>
    let serial ← nextSerial
    let e : PendingEvent :=
      { serial, generation := (← look).generation, triggered := false, listeners := [] }
    notifiers.update notifier fun u => .ok ((), { u with event := some e })
    return e

/-- Lets somebody wait for the event of a notifier. -/
def listen (notifier : Nat) (l : Listener Process) : Action Testbed Unit := do
  let e ← eventOf notifier
  notifiers.update notifier fun u =>
    .ok ((), { u with event := some { e with listeners := e.listeners ++ [l] } })

/-- Makes the event of a notifier happen, if somebody asked for it. It can happen only in
a simulation; one of an earlier simulation reaches nobody. -/
def fireEvent (notifier : Nat) (value : Datum) : Action Testbed Unit := do
  if let some e := (← notifiers.read notifier).event then
    if e.triggered then throw .alreadyTriggered
    let setEvent (event : Option PendingEvent) : Action Testbed Unit :=
      notifiers.update notifier fun u => .ok ((), { u with event })
    setEvent (some { e with triggered := true })
    if e.generation = 0 then throw .noSimulation
    if e.generation = (← look).generation then
      Simulation.plan (·.scheduleNow false (.ok (.occurred value e.listeners)))
    setEvent none

/-- Calls a callback: it records the call and does its next act. `trigger` triggers a
notifier. -/
def callBack (trigger : Nat → Datum → Action Testbed Unit) (value : Datum) (callback : Nat) :
    Action Testbed Unit := do
  let c ← callbacks.read callback
  record [.text c.name, .text "called", .value value]
  match c.acts with
  | [] => pure ()
  | act :: rest =>
    callbacks.update callback fun c => .ok ((), { c with acts := rest })
    match act with
    | .nothing => pure ()
    | .fail text => throw (.scripted .valueError text)
    | .unsubscribe n c => do unsubscribe (← notifierNamed n) (← callbackNamed c)
    | .subscribe n c priority => do subscribe (← notifierNamed n) (← callbackNamed c) priority
    | .trigger n value => do trigger (← notifierNamed n) value

/-- Triggers a notifier, with so many triggerings inside of each other. -/
def triggerNested : Nat → Nat → Datum → Action Testbed Unit
  | 0, _, _ => pure ()
  | depth + 1, notifier, value => do
    let u ← notifiers.read notifier
    u.notifier.trigger value (callBack (triggerNested depth) value)
    fireEvent notifier value

/-- The acts that are left to all callbacks. -/
def actsLeft (w : World) : Nat := w.callbacks.toList.foldl (fun n c => n + c.acts.length) 0

/-- Triggers a notifier. Each triggering inside of it takes an act. -/
def trigger (notifier : Nat) (value : Datum) : Action Testbed Unit := do
  triggerNested (actsLeft (← look) + 1) notifier value

end TschLearning.Testbed
