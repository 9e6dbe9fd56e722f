import TschLearning.Testbed.World

/-! The MAC layers of a testbed, simulated ones and stand-ins, and their deployers. -/

namespace TschLearning.Testbed

namespace MacCall

def label : MacCall → String
  | .deleteLink => "delete_link"
  | .addLink => "add_link"
  | .setSequence => "set_hopping_sequence"
  | .checkSequence => "check_hopping_sequence"
  | .request => "request_transmission"

def all : List MacCall := [.deleteLink, .addLink, .setSequence, .checkSequence, .request]

end MacCall

namespace StandInMac

def labelOf (name : String) : String := "FakeMac('" ++ name ++ "')"

/-- The next answer to an operation. -/
def answer (f : StandInMac) (call : MacCall) : Option Fault × StandInMac :=
  match f.answers.lookup call with
  | some (a :: rest) =>
    (a, { f with answers := (call, rest) :: f.answers.filter (·.1 != call) })
  | _ => (none, f)

end StandInMac

def callStandIn (handle : Nat) (call : MacCall) (arguments : List Datum) : Action Testbed Unit := do
  let f ← standIns.read handle
  record (.text f.name :: .text call.label :: arguments.map .value)
  let refusal ← standIns.update handle fun f => .ok (f.answer call)
  if let some fault := refusal then throw fault
  if call = .request ∧ !f.takesRequests then throw .requestsUnsupported

def simulatedAccess : MacAccess Nat Testbed := Mac.access macs fun _ => ""

def macAccess : MacAccess MacRef Testbed where
  label := MacRef.label
  deleteLink
    | .simulated i _, slot => simulatedAccess.deleteLink i slot
    | .standIn i _, slot => callStandIn i .deleteLink [.int slot]
  addLink
    | .simulated i _, slot, channel => simulatedAccess.addLink i slot channel
    | .standIn i _, slot, channel => callStandIn i .addLink [.int slot, .int channel]
  checkSequence
    | .simulated i _, channels => simulatedAccess.checkSequence i channels
    | .standIn i _, channels =>
      callStandIn i .checkSequence [.list (Datum.ofInts channels)]
  setSequence
    | .simulated i _, channels => simulatedAccess.setSequence i channels
    | .standIn i _, channels => callStandIn i .setSequence [.list (Datum.ofInts channels)]
  request
    | .simulated i _, destination, size => simulatedAccess.request i destination size
    | .standIn i _, destination, size =>
      callStandIn i .request [destination, .int size]

def deploy (handle : Nat) (configuration : Configuration) : Action Testbed Bool :=
  deployers.run handle (Deployer.deploy macAccess configuration)

def macRef (o : Object) : Action Testbed MacRef := do
  match o with
  | .mac i => return .simulated i (← macs.read i).label
  | .standInMac i => return .standIn i (StandInMac.labelOf (← standIns.read i).name)
  | _ => throw .noObject

def newMac (name slots channels : Datum) (owned : Option (List Datum))
    (capacity : Option Datum) : Action Testbed Object := do
  let mac ← Action.ofExcept (Mac.create name slots channels owned capacity)
  return .mac (← add World.macs (fun macs w => { w with macs }) mac)

def newStandIn (f : StandInMac) : Action Testbed Object := do
  return .standInMac (← add World.standIns (fun standIns w => { w with standIns }) f)

def newDeployer (mode : DeployMode) (names : List String) : Action Testbed Object := do
  let refs ← names.mapM fun n => do macRef (← find n)
  return .deployer
    (← add World.deployers (fun deployers w => { w with deployers }) (.create mode refs))

def deleteLink (handle : Nat) (slot : Datum) : Action Testbed Unit := do
  let name := (← macs.read handle).label
  if let some remark ← macs.update handle (·.deleteLink slot) then
    Action.note (.ofComponent .mac name remark)

def addLink (handle : Nat) (slot channel : Datum) : Action Testbed Unit :=
  macs.update handle fun m => return ((), ← m.addLink slot channel)

/-- The items of a value that has to be a row. -/
def itemsOf (d : Datum) : Except Fault (List Datum) :=
  match d.items? with
  | some items => .ok items
  | none => .error .notASequence

/-- The configuration that a value is: entries by slot, or a row. -/
def configurationOf (d : Datum) : Except Fault Configuration :=
  match d with
  | .dict entries => .ok (.pairs (entries.map fun e => (.text e.1, e.2)))
  | d => return .channels (← itemsOf d)

def checkSequence (handle : Nat) (channels : Datum) : Action Testbed Unit :=
  macs.update handle fun m => do
    let _ ← m.checkSequence (← itemsOf channels)
    return ((), m)

def setSequence (handle : Nat) (channels : Datum) : Action Testbed Unit :=
  macs.update handle fun m => return ((), ← m.setSequence (← itemsOf channels))

def requestFrame (handle : Nat) (destination size : Datum) : Action Testbed Unit :=
  macs.update handle fun m => .ok ((), m.request destination size)

def popFrame (handle : Nat) : Action Testbed (Option String) := do
  match ← macs.update handle fun m => .ok m.popFrame with
  | none => return none
  | some frame => return some (← Action.ofExcept frame.label)

def channelFor (handle : Nat) (slot : Datum) : Action Testbed (Option Int) := do
  Action.ofExcept ((← macs.read handle).channelFor slot)

end TschLearning.Testbed
