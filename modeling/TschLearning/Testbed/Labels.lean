import TschLearning.Testbed.World
import TschLearning.Testbed.Macs

/-! How the objects of a testbed appear in messages. -/

namespace TschLearning.Testbed

/-- The kind of an object; deployers and generators are told apart by the world. -/
def Object.kind (w : World) : Object → Kind
  | .valueTable _ => .valueTable
  | .outcomeTracker _ => .outcomeTracker
  | .peakingTable _ => .peakingTable
  | .parameters _ => .learningParameters
  | .schedule _ => .epsilonSchedule
  | .rng i =>
    match w.rngs[i]? with
    | some (.permuted _) => .generator
    | _ => .rng
  | .channelChoice _ => .channelSelector
  | .slotChoice _ => .slotSelector
  | .lookahead _ => .lookaheadUpdate
  | .slotReward _ => .slotRewardUpdate
  | .gate _ => .activationStateMachine
  | .sequence _ => .hoppingSequence
  | .deployer i =>
    match w.deployers[i]? with
    | some (.links _) => .linkDeployer
    | _ => .hoppingSequenceDeployer
  | .hopping _ => .channelHoppingController
  | .selection _ => .slotSelectionAgent
  | .mac _ => .tschMac
  | .interference _ => .interferenceModel
  | .network _ => .tschNetwork
  | .statistics _ => .transmissionStatistics
  | .notifier _ => .notifier
  | .prepender true => .simTimePrepender
  | .prepender false => .sourcePrepender
  | .standInMac _ => .fakeMac
  | .recordingSink .. => .recordingSink
  | .callback _ => .callback

/-- The last part of the name of a kind, in angle brackets. -/
def anonymous (k : Kind) : String :=
  "<" ++ (k.name.splitOn ".").getLastD "" ++ ">"

/-- How a wrapper of the caller's log appears; it shows the level from which that log keeps
entries. -/
def prependerLabel (w : World) (timed : Bool) : String :=
  let level := w.log.threshold.getD .warning
  "<" ++ (if timed then "SimTimePrepender" else "SourcePrepender") ++ " custom (" ++ level.name
    ++ ")>"

/-- How a generator that was not scripted appears. -/
def generatorLabel : String := "Generator(PCG64)"

/-- The text of an object that has one of its own for every purpose. -/
def Object.ownLabel? (w : World) : Object → Option String
  | .valueTable i => w.tables[i]?.map ValueTable.label
  | .outcomeTracker i => w.trackers[i]?.map OutcomeTracker.label
  | .peakingTable i => w.peaks[i]?.map PeakingTable.label
  | .parameters u => some u.params.label
  | .schedule s => some s.label
  | .sequence h => some h.label
  | .notifier i => w.notifiers[i]?.map (·.notifier.label)
  | .prepender timed => some (prependerLabel w timed)
  | .rng i =>
    match w.rngs[i]? with
    | some (.permuted _) => some generatorLabel
    | _ => none
  | _ => none

/-- The text of an object in a sentence, if it has one. -/
def Object.spokenLabel? (w : World) : Object → Option String
  | .channelChoice _ => some Selection.channelLabel
  | .slotChoice _ => some Selection.slotLabel
  | .lookahead _ => some Lookahead.label
  | .slotReward _ => some SlotReward.label
  | .gate i => w.gates[i]?.map (·.gate.label)
  | .deployer i => w.deployers[i]?.map Deployer.label
  | .hopping i => w.hoppings[i]?.map (·.scheduler.label)
  | .selection i => w.selections[i]?.map (·.scheduler.label)
  | .mac i => w.macs[i]?.map Mac.label
  | .network _ => some Network.label
  | .statistics _ => some Statistics.label
  | .standInMac i => w.standIns[i]?.map fun f => StandInMac.labelOf f.name
  | o => o.ownLabel? w

def Object.written (w : World) (o : Object) : String :=
  (o.ownLabel? w).getD (anonymous (o.kind w))

def Object.spoken (w : World) (o : Object) : String :=
  (o.spokenLabel? w).getD (anonymous (o.kind w))

inductive Thing where
  | object (o : Object)
  | value (d : Datum)

namespace Thing

def written (w : World) : Thing → String
  | .object o => o.written w
  | .value d => d.written

def spoken (w : World) : Thing → String
  | .object o => o.spoken w
  | .value d => d.spoken

def kind (w : World) : Thing → Kind
  | .object o => o.kind w
  | .value d => Kind.ofDatum d

/-- How a thing stands in front of something that belongs to it; null does not. -/
def owning (w : World) : Thing → String
  | .value .null => ""
  | t => possessive (t.written w)

end Thing

/-- What a value stands for: a text that names an object stands for it. -/
def thing (d : Datum) : Action Testbed Thing := do
  match d with
  | .text s =>
    match ← find? s with
    | some o => return .object o
    | none => return .value d
  | d => return .value d

def checkKind (given : Thing) (expected : KindChoice) (caller : String) : Action Testbed Unit := do
  let k := given.kind (← look)
  if !expected.accepts k then throw (.wrongKind caller k expected)

end TschLearning.Testbed
