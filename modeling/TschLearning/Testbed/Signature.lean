import TschLearning.Testbed.World

/-! What the constructors, functions and operations of a testbed ask for: constructors and
functions take their values by name, operations take a number of them in order. Whatever does
not fit is refused before anything else happens. -/

namespace TschLearning.Testbed

/-- The names of the values that are asked for, and of those that may be given. -/
structure Signature where
  required : List String
  optional : List String

namespace Signature

def accepts (s : Signature) (given : List String) : Bool :=
  s.required.all given.contains && given.all fun g => (s.required ++ s.optional).contains g

/-- The signature of the constructor of a kind, where it has one of its own. -/
def ofConstructor? : String → Option Signature
  | "ValueTable" | "OutcomeTracker" => some ⟨["slots"], ["channels"]⟩
  | "PeakingTable" => some ⟨["slots"], []⟩
  | "EpsilonSchedule" => some ⟨[], ["k", "epsilon_cap"]⟩
  | "ChannelSelector" => some ⟨["table", "epsilon", "rng"], []⟩
  | "SlotSelector" => some ⟨["table", "peaking", "epsilon", "rng"], []⟩
  | "LookaheadUpdate" | "SlotRewardUpdate" => some ⟨["params"], []⟩
  | "ActivationStateMachine" => some ⟨["deactivation_threshold"], ["owner"]⟩
  | "HoppingSequence" => some ⟨["channels"], []⟩
  | "HoppingSequenceDeployer" | "LinkDeployer" => some ⟨["macs"], []⟩
  | "ChannelHoppingController" =>
    some ⟨["slots", "channels", "deployer"], ["params", "seed", "name", "logger"]⟩
  | "SlotSelectionAgent" =>
    some ⟨["node_id", "slots", "mac"],
      ["params", "destination", "channel_offset", "seed", "logger"]⟩
  | "TschMac" => some ⟨["name", "slots", "channels"], ["ownedSlots", "maxLinks"]⟩
  | "InterferenceModel" => some ⟨["failureProbabilities"], []⟩
  | "TschNetwork" =>
    some ⟨["slots", "channels"], ["interference", "slotDuration", "trafficProbability", "seed"]⟩
  | "TransmissionStatistics" => some ⟨["network"], []⟩
  | "Notifier" => some ⟨[], ["name", "owner"]⟩
  | _ => none

def ofFunction? : String → Option Signature
  | "ensureIndex" => some ⟨["index", "bound", "name"], ["caller"]⟩
  | "ownerPrefix" => some ⟨["owner"], []⟩
  | "ensureType" => some ⟨["input", "types", "caller"], []⟩
  | "channel_hopping_scenario" =>
    some ⟨[], ["node_count", "slotframe_size", "channel_count", "failure_probabilities",
      "traffic_probability", "simulation_time", "params", "deploy_mode", "seed"]⟩
  | "slot_selection_scenario" =>
    some ⟨[], ["node_count", "slotframe_size", "packet_probability", "packet_size",
      "simulation_time", "success_reward", "failure_reward", "params", "seed"]⟩
  | _ => none

end Signature

/-- The least and the greatest number of values that an operation takes. -/
structure Arity where
  least : Nat
  greatest : Nat
deriving DecidableEq, Repr

namespace Arity

def exactly (n : Nat) : Arity := ⟨n, n⟩

def accepts (a : Arity) (n : Nat) : Bool := a.least ≤ n && n ≤ a.greatest

def ofSink? : String → Option Arity
  | "on_slot_boundary" | "on_overheard_activity" => some (exactly 1)
  | "on_transmission_outcome" => some (exactly 3)
  | "boundaries" => some (exactly 2)
  | _ => none

def ofMacLayer? : String → Option Arity
  | "delete_link" | "set_hopping_sequence" | "check_hopping_sequence" => some (exactly 1)
  | "add_link" | "request_transmission" => some (exactly 2)
  | _ => none

/-- The arity of an operation of an object; what has none takes any values. -/
def of? : Object → String → Option Arity
  | .valueTable _, "value" => some ⟨1, 2⟩
  | .valueTable _, "row" | .valueTable _, "max_of" | .valueTable _, "best_channel" =>
    some (exactly 1)
  | .valueTable _, "update" => some (exactly 3)
  | .outcomeTracker _, "record_outcome" => some (exactly 3)
  | .outcomeTracker _, "succeeded" => some ⟨1, 2⟩
  | .outcomeTracker _, "any_success" | .outcomeTracker _, "reset_epoch" => some (exactly 0)
  | .peakingTable _, "score" | .peakingTable _, "decay" => some (exactly 1)
  | .peakingTable _, "bump" => some ⟨1, 2⟩
  | .peakingTable _, "quietest" => some (exactly 0)
  | .parameters _, "reward" => some (exactly 1)
  | .schedule _, "call" => some (exactly 1)
  | .rng _, "random" => some (exactly 0)
  | .rng _, "integers" => some ⟨1, 2⟩
  | .channelChoice _, "choose_action" => some ⟨1, 2⟩
  | .slotChoice _, "choose_action" => some ⟨0, 1⟩
  | .lookahead _, "apply" | .slotReward _, "apply" => some (exactly 3)
  | .gate _, "epoch_passed" => some (exactly 0)
  | .sequence _, "getitem" => some (exactly 1)
  | .sequence _, "get_string" => some (exactly 0)
  | .deployer _, "deploy" => some (exactly 1)
  | .hopping _, "choose_action" => some (exactly 1)
  | .hopping _, "record_outcome" => some (exactly 3)
  | .hopping _, "deploy_policy" => some ⟨0, 1⟩
  | .hopping _, "update_epoch" | .hopping _, "compute_policy" | .hopping _, "summary" =>
    some (exactly 0)
  | .selection _, "choose_action" | .selection _, "request_transmission"
  | .selection _, "summary" => some (exactly 0)
  | .mac _, "attach" | .mac _, "channelFor" => some (exactly 1)
  | .mac _, "popFrame" => some (exactly 0)
  | .mac _, m | .standInMac _, m => ofMacLayer? m
  | .interference _, "disturbed" => some (exactly 2)
  | .network _, "addMac" | .network _, "runSlots" | .network _, "record" => some (exactly 1)
  | .network _, "start" => some (exactly 0)
  | .statistics _, "channelSuccessRates" | .statistics _, "log" => some (exactly 0)
  | .notifier _, "subscribe" => some ⟨1, 2⟩
  | .notifier _, "unsubscribe" => some (exactly 1)
  | .notifier _, "trigger" => some ⟨0, 1⟩
  | .hopping _, m | .selection _, m | .recordingSink .., m => ofSink? m
  | _, _ => none

end Arity
end TschLearning.Testbed
