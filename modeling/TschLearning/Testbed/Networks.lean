import TschLearning.Testbed.Schedulers

/-! The networks of a testbed, and what observes them. -/

namespace TschLearning.Testbed

def newNetwork (slots channels : Datum) (interference : Option (Interference Float))
    (slotDuration traffic : Datum) (seed : Seed) : Action Testbed Object := do
  let network ← Action.ofExcept (Network.create slots channels interference
    slotDuration.comparable (Number.ceiling <$> traffic.comparable))
  let rng ← generatorOf seed
  return .network (← add World.networks (fun networks w => { w with networks })
    { network, rng })

def observe (observer : ObserverRef) (r : TransmissionRecord Nat) : Action Testbed Unit :=
  match observer with
  | .statistics i => statistics.update i fun s => return ((), ← s.add r)
  | .recorder _ name =>
    record [.text name, .text "transmission", .nat r.asn, .plain r.slot, .int r.channel,
      .plain r.senderName, .text r.status.name, .bool r.success, .text r.label]

def surroundings (rng : Nat) : Surroundings Nat SinkRef ObserverRef Testbed Float where
  macs := macs
  draws := drawsFrom rng
  boundary sink asn := deliverBoundary sink (.int asn)
  outcome sink slot channel success := deliverOutcome sink slot (.int channel) (.bool success)
  overheard sink slot := deliverOverheard sink slot
  observe := observe

/-- Runs slots of a network; gives the number of the slot that comes next. -/
def runSlots (handle : Nat) (count : Nat) : Action Testbed Nat := do
  let env := surroundings (← networks.read handle).rng
  networks.run handle
    (Action.within NetworkUnit.network (fun network u => { u with network })
      (Network.runSlots env count))
  return (← networks.read handle).network.asn

def changeNetwork (handle : Nat)
    (f : Network Nat ObserverRef Float → Except Fault (Network Nat ObserverRef Float)) :
    Action Testbed Unit :=
  networks.update handle fun u => return ((), { u with network := ← f u.network })

def addMac (network mac : Nat) : Action Testbed Unit := do
  let m ← macs.read mac
  changeNetwork network (·.addMac mac m)

def watch (network : Nat) (observer : ObserverRef) : Action Testbed Unit :=
  networks.alone network (Action.alone (fun u => u.network.observers)
    (fun observers u => { u with network := { u.network with observers } })
    (Notifier.subscribe observer (.int 0)))

def recordTransmissions (network : Nat) (name : String) : Action Testbed Unit := do
  watch network (.recorder (← nextSerial) name)

def newStatistics (network : Nat) : Action Testbed Object := do
  let i ← add World.statistics (fun statistics w => { w with statistics }) .empty
  watch network (.statistics i)
  return .statistics i

def logStatistics (handle : Nat) : Action Testbed Unit := do
  let s ← statistics.read handle
  if s.isLoggable then statistics.update handle fun s => .ok ((), s.logged)
  s.log

def attach (mac : Nat) (sink : SinkRef) : Action Testbed Unit :=
  macs.update mac fun m => .ok ((), { m with sink := some sink })

end TschLearning.Testbed
