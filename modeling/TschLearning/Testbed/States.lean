import TschLearning.Testbed.Scenarios

/-! The states of the components of a testbed. Looking at a component changes nothing. -/

namespace TschLearning.Testbed
namespace Snapshot

def ofLinks (l : Links) : Snapshot := .row (l.sorted.map fun e => pair (int e.1) (int e.2))

def ofLast {μ : Type} : Deployer μ → Snapshot
  | .sequence d => optional (fun h => ints h.channels) d.last
  | .links d => ofLinks d.last

def ofDeployer {μ : Type} (d : Deployer μ) : Snapshot :=
  .record [("last_deployed", ofLast d), ("failures", nat d.failures)]

def ofParameters (p : Parameters Float) : Snapshot :=
  .record (ParameterName.all.map fun n => (n.label, .value (p.toInput n)))

def ofActivation (a : Activation) : Snapshot :=
  .record [("state", text a.stateName), ("active", bool a.active), ("count", nat a.count),
    ("threshold", .value a.threshold)]

def ofHopping {μ : Type} (c : ChannelHopping Float) (deployer : Deployer μ) (used : Option Nat) :
    Snapshot :=
  .record [("values", rows c.table.rows),
    ("outcomes", .row (c.outcomes.successes.map fun p => pair (nat p.1) (nat p.2))),
    ("configuration", .value (.list c.configuration)), ("state", text c.activation.stateName),
    ("active", bool c.active), ("deactivation_count", nat c.activation.count),
    ("epochs", nat c.epochs), ("success_count", nat c.successes),
    ("total_count", nat c.attempts), ("success_rate", float c.successRate),
    ("deployer", ofDeployer deployer), ("rng", optional nat used)]

/-- The values of the slots of a table with a single channel. -/
def ofSlots (t : ValueTable Float) : Snapshot := floats ((List.range t.slots).map (t.cell · 0))

def ofSelection {μ : Type} (a : SlotSelection μ Float) (used : Option Nat) :
    Except Fault Snapshot := do
  return .record [("values", ofSlots a.table), ("scores", floats a.peaking.scores),
    ("epsilon", float a.epsilon), ("state", text a.activation.stateName),
    ("active", bool a.active), ("action", int a.action), ("success_count", nat a.successes),
    ("total_count", nat a.attempts), ("total_delay", nat a.delay),
    ("mean_delay", float (← a.meanDelay)), ("success_rate", float a.successRate),
    ("deployer", ofDeployer (.links a.deployer)), ("rng", optional nat used)]

def ofMac {κ : Type} (m : Mac κ) : Snapshot :=
  .record [("links", ofLinks m.links), ("hoppingSequence", optional ints m.sequence),
    ("queue", nat m.queue.length), ("owned", nats m.owned), ("asn", optional nat m.asn)]

def ofStatistics (s : Statistics) : Snapshot :=
  let names (r : Roster) : Snapshot :=
    .row (r.entries.map fun e => pair (.value e.1) (nat e.2))
  let channels (t : Tally Int) : Snapshot :=
    .row ((t.sorted Statistics.channelLe).map fun e => pair (int e.1) (nat e.2))
  .record [("attempts", names s.attempts), ("successes", names s.successes),
    ("channelAttempts", channels s.channelAttempts),
    ("channelSuccesses", channels s.channelSuccesses),
    ("totalAttempts", nat s.totalAttempts), ("totalSuccesses", nat s.totalSuccesses),
    ("successRate", float s.successRate)]

def ofRun (r : ScenarioResult) (now : Float) (s : Statistics) (schedulers : List Snapshot) :
    Except Fault Snapshot := do
  return .record [("repr", text r.label), ("success_count", nat r.successes),
    ("total_count", nat r.attempts), ("success_rate", float r.successRate),
    ("mean_delay", float (← r.meanDelay)), ("slots", nat r.slots), ("now", float now),
    ("statistics", ofStatistics s), ("controllers", .row schedulers)]

end Snapshot

def ofChoice (epsilon : Datum) (rng : Nat) : Action Testbed Snapshot := do
  return .record [("epsilon", .value epsilon), ("rng", .optional .nat (← drawsUsed rng))]

def ofDevices (handles : List Nat) : Action Testbed Snapshot := do
  return .row (← handles.mapM fun m => do
    let mac ← macs.read m
    return .pair (.plain mac.name) (.ofMac mac))

/-- The state of an object, if it has one. -/
def snapshot? (o : Object) : Action Testbed (Option Snapshot) := do
  match o with
  | .valueTable i => return some (.record [("values", .rows (← tables.read i).rows)])
  | .outcomeTracker i =>
    return some (.record [("succeeded", .row ((← trackers.read i).successes.map fun p =>
      .pair (.nat p.1) (.nat p.2)))])
  | .peakingTable i => return some (.record [("scores", .floats (← peaks.read i).scores)])
  | .parameters u => return some (.ofParameters u.params)
  | .channelChoice i => do
    let c ← channelChoices.read i
    return some (← ofChoice c.epsilon c.rng)
  | .slotChoice i => do
    let c ← slotChoices.read i
    return some (← ofChoice c.epsilon c.rng)
  | .gate i => return some (.ofActivation (← gates.read i).gate)
  | .sequence h => return some (.record [("channels", .ints h.channels)])
  | .deployer i => return some (.ofDeployer (← deployers.read i))
  | .hopping i => do
    let u ← hoppings.read i
    return some (.ofHopping u.scheduler (← deployers.read u.deployer) (← drawsUsed u.rng))
  | .selection i => do
    let u ← selections.read i
    let used ← drawsUsed u.rng
    return some (← Action.ofExcept (Snapshot.ofSelection u.scheduler used))
  | .mac i => return some (.ofMac (← macs.read i))
  | .interference m =>
    return some (.record
      [("channels", .nat m.channels), ("probabilities", .floats m.probabilities)])
  | .network i => do
    let u ← networks.read i
    return some (.record [("asn", .nat u.network.asn), ("macs", ← ofDevices u.network.macs),
      ("rng", .optional .nat (← drawsUsed u.rng))])
  | .statistics i => do
    let s ← statistics.read i
    if !s.isListable then throw .incomparable
    return some (.ofStatistics s)
  | _ => return none

def ofChannelHoppingRun (handle : Nat) : Action Testbed Snapshot := do
  let (net, pan) ← pans.read handle
  let now ← time
  Action.ofExcept (Snapshot.ofRun (pan.result net) now pan.statistics
    [.ofHopping pan.scheduler pan.deployer pan.sources.scheduler.used?])

def ofSlotSelectionRun (handle : Nat) : Action Testbed Snapshot := do
  let (net, star) ← stars.read handle
  let now ← time
  Action.ofExcept do
    let schedulers ← star.schedulers.toList.mapM fun e => Snapshot.ofSelection e.1 e.2.used?
    Snapshot.ofRun (star.result net) now star.statistics schedulers

end TschLearning.Testbed
