import TschLearning.Datum

/-! The kinds of things that a type check can meet, and their names in messages. -/

namespace TschLearning

/-- The kind of a plain value or of a component of this library. -/
inductive Kind where
  | null | bool | int | float | text | list | dict
  | valueTable | outcomeTracker | peakingTable
  | learningParameters
  | epsilonSchedule | channelSelector | slotSelector
  | lookaheadUpdate | slotRewardUpdate
  | activationStateMachine
  | hoppingSequence | hoppingSequenceDeployer | linkDeployer
  | slotEventSink | channelHoppingController | slotSelectionAgent
  | tschMac | interferenceModel | tschNetwork
  | transmissionStatistics
  | notifier | sourcePrepender | simTimePrepender
  | fakeMac | recordingSink | callback | rng | generator
deriving DecidableEq, Repr

namespace Kind

def name : Kind → String
  | .null => "NoneType"
  | .bool => "bool"
  | .int => "int"
  | .float => "float"
  | .text => "str"
  | .list => "list"
  | .dict => "dict"
  | .valueTable => "tschrl.control.tables.ValueTable"
  | .outcomeTracker => "tschrl.control.tables.OutcomeTracker"
  | .peakingTable => "tschrl.control.tables.PeakingTable"
  | .learningParameters => "tschrl.control.params.LearningParameters"
  | .epsilonSchedule => "tschrl.control.policy.EpsilonSchedule"
  | .channelSelector => "tschrl.control.policy.ChannelSelector"
  | .slotSelector => "tschrl.control.policy.SlotSelector"
  | .lookaheadUpdate => "tschrl.control.learning.LookaheadUpdate"
  | .slotRewardUpdate => "tschrl.control.learning.SlotRewardUpdate"
  | .activationStateMachine => "tschrl.control.activation.ActivationStateMachine"
  | .hoppingSequence => "tschrl.control.deployer.HoppingSequence"
  | .hoppingSequenceDeployer => "tschrl.control.deployer.HoppingSequenceDeployer"
  | .linkDeployer => "tschrl.control.deployer.LinkDeployer"
  | .slotEventSink => "tschrl.control.controller.SlotEventSink"
  | .channelHoppingController => "tschrl.control.controller.ChannelHoppingController"
  | .slotSelectionAgent => "tschrl.control.controller.SlotSelectionAgent"
  | .tschMac => "tschrl.networking.mac.TschMac"
  | .interferenceModel => "tschrl.networking.mac.InterferenceModel"
  | .tschNetwork => "tschrl.networking.mac.TschNetwork"
  | .transmissionStatistics => "tschrl.networking.stats.TransmissionStatistics"
  | .notifier => "tschrl.simtools.Notifier"
  | .sourcePrepender => "tschrl.simtools.SourcePrepender"
  | .simTimePrepender => "tschrl.simtools.SimTimePrepender"
  | .fakeMac => "FakeMac"
  | .recordingSink => "RecordingSink"
  | .callback => "Callback"
  | .rng => "Rng"
  | .generator => "numpy.random._generator.Generator"

def written (k : Kind) : String := "<class '" ++ k.name ++ "'>"

def ofDatum : Datum → Kind
  | .null => .null
  | .bool _ => .bool
  | .int _ => .int
  | .float _ => .float
  | .text _ => .text
  | .list _ => .list
  | .dict _ => .dict

/-- Whether a thing of the first kind passes for one of the second: truth values
pass for integers, the learning schedulers for sinks. -/
def passesFor : Kind → Kind → Bool
  | .bool, .int => true
  | .channelHoppingController, .slotEventSink => true
  | .slotSelectionAgent, .slotEventSink => true
  | .recordingSink, .slotEventSink => true
  | k, l => k == l

end Kind

/-- What a type check accepts: one kind, or any of several. -/
inductive KindChoice where
  | one (k : Kind)
  | anyOf (ks : List Kind)

namespace KindChoice

def kinds : KindChoice → List Kind
  | .one k => [k]
  | .anyOf ks => ks

def accepts (c : KindChoice) (k : Kind) : Bool := c.kinds.any k.passesFor

def written : KindChoice → String
  | .one k => k.written
  | .anyOf [k] => "(" ++ k.written ++ ",)"
  | .anyOf ks => "(" ++ ", ".intercalate (ks.map Kind.written) ++ ")"

end KindChoice
end TschLearning
