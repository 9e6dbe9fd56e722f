import TschLearning.Action
import TschLearning.HoppingSequence
import TschLearning.Links
import TschLearning.Text.Template

/-! The journal of a run: what the components have to say about what they do. An
entry names what happened; its wording, its level and the part of the library it
belongs to follow from that. -/

namespace TschLearning

inductive Level where
  | debug | info | warning | error
deriving DecidableEq, Repr

namespace Level

def rank : Level → Nat
  | .debug => 0
  | .info => 1
  | .warning => 2
  | .error => 3

def name : Level → String
  | .debug => "DEBUG"
  | .info => "INFO"
  | .warning => "WARNING"
  | .error => "ERROR"

end Level

/-- The part of the library that an entry belongs to, or a log of the caller's. -/
inductive Topic where
  | activation | controller | deployer | learning | policy | mac | statistics | scenario
  | simulation | custom
deriving DecidableEq, Repr

inductive Remark where
  | exploredChannel (slot : Nat) (channel : Int)
  | exploitedChannel (slot channel : Nat)
  | exploredSlot (slot : Nat)
  | exploitedSlot (slot : Nat)
  | rewardedChannel (reward : Datum) (slot channel : Nat) (old new : Datum)
  | rewardedSlot (reward : Datum) (slot : Nat) (old new : Datum)
  | settling (count : Nat) (threshold : Datum)
  | activated
  | deploymentFailed (why : Fault)
  | sequenceDeployed (sequence : HoppingSequence)
  | nothingToRestore (macs : List String)
  | sequenceNotRestored (mac : String) (why : Fault)
  | linksDeployed (edits : Nat) (links : Links)
  | editNotUndone (edit : LinkEdit) (mac : String) (why : Fault)
  | outcomeDiscarded (slot channel : Nat)
  | outcomeReported (success : Bool) (channel slot : Nat)
  | nothingToLearnFrom
  | configurationKept (configuration : List Datum)
  | configurationDeployed (configuration : List Datum)
  | slotOutcomeDiscarded (slot : Nat)
  | slotKept (slot : Int)
  | transmissionRequested (size : Nat) (destination : Datum)
  | noLinkToDelete (slot : Nat)
  | collision (slot : Datum) (channel : Int)
  | deviceRate (device : Datum) (successes attempts : Nat)
  | channelRate (channel : Int) (successes attempts : Nat)
  | totalRate (successes attempts : Nat)
  | summary (who : String) (successes attempts : Nat)
  | simulationRunning
  | simulationReset
  | triggered (value : Datum)
  | custom (level : Level) (template : Datum) (arguments : List Datum)

/-- The share of successes, zero if there was no attempt. -/
def successRate (successes attempts : Nat) : Float :=
  if attempts = 0 then 0.0 else Binary64.quotient successes attempts

/-- The mean of so many delays, zero if there are none. It fails beyond the largest
number. -/
def meanDelay (total count : Nat) : Except Fault Float :=
  if count = 0 then .ok 0.0
  else match Binary64.intQuotient? total count with
    | some mean => .ok mean
    | none => .error .tooLarge

/-- How a scheduler sums up its transmissions. -/
def summaryText (who : String) (successes attempts : Nat) : String :=
  who ++ " success rate: " ++ Binary64.fixed 4 (successRate successes attempts)
    ++ s!" ({successes}/{attempts})"

namespace Remark

def level : Remark → Level
  | .activated | .deviceRate .. | .channelRate .. | .totalRate .. | .summary ..
  | .simulationRunning => .info
  | .deploymentFailed _ | .configurationKept _ | .slotKept _ => .warning
  | .nothingToRestore _ | .sequenceNotRestored .. | .editNotUndone .. => .error
  | .custom level .. => level
  | _ => .debug

/-- The wording of a remark, with places for what it is about. -/
def template : Remark → String
  | .exploredChannel .. => "slot %d: (exploration) channel %d"
  | .exploitedChannel .. => "slot %d: (exploitation) channel %d"
  | .exploredSlot _ => "(exploration) quietest slot %d"
  | .exploitedSlot _ => "(exploitation) slot %d"
  | .rewardedChannel .. => "giving reward %s to slot %d channel %d: %f -> %f"
  | .rewardedSlot .. => "giving reward %s to slot %d: %f -> %f"
  | .settling .. => "not active, deactivation count: %d of %d"
  | .activated => "now active"
  | .deploymentFailed _ => "deployment failed (%s), keeping the previous schedule"
  | .sequenceDeployed _ => "deployed hopping sequence %s"
  | .nothingToRestore _ => "no previous hopping sequence to restore on %s"
  | .sequenceNotRestored .. => "could not restore the previous hopping sequence on %s: %s"
  | .linksDeployed .. => "deployed %d link edits, links: %s"
  | .editNotUndone .. => "could not undo %s of slot %d on %s: %s"
  | .outcomeDiscarded .. => "not active, discarding outcome of slot %d channel %d"
  | .outcomeReported .. => "transmission %s at: [channel %d, slot %d]"
  | .nothingToLearnFrom => "no configuration deployed yet, nothing to learn from"
  | .configurationKept _ => "keeping configuration %s, retrying at the next slotframe"
  | .configurationDeployed _ => "time slot configuration: %s"
  | .slotOutcomeDiscarded _ => "not active, discarding outcome of slot %d"
  | .slotKept _ => "keeping slot %d"
  | .transmissionRequested .. => "requesting a transmission of %d bytes to %s"
  | .noLinkToDelete _ => "no link in slot %d to delete"
  | .collision .. => "collision in slot %d on channel %d"
  | .deviceRate .. => "%s success rate: %f (%d/%d)"
  | .channelRate .. => "channel %d success rate: %f"
  | .totalRate .. => "Total success rate: %f (%d/%d)"
  | .summary who successes attempts => summaryText who successes attempts
  | .simulationRunning => "SimulationManager: Running simulation..."
  | .simulationReset => "SimulationManager: Initializing environment"
  | .triggered _ => "Triggered with value %s"
  | .custom _ template _ => template.spoken

def arguments : Remark → List Datum
  | .exploredChannel slot channel => [.int slot, .int channel]
  | .exploitedChannel slot channel => [.int slot, .int channel]
  | .exploredSlot slot | .exploitedSlot slot => [.int slot]
  | .rewardedChannel reward slot channel old new =>
    [reward, .int slot, .int channel, old, new]
  | .rewardedSlot reward slot old new => [reward, .int slot, old, new]
  | .settling count threshold => [.int count, threshold]
  | .deploymentFailed why => [.text why.spoken]
  | .sequenceDeployed sequence => [.text sequence.written]
  | .nothingToRestore macs => [.text (", ".intercalate macs)]
  | .sequenceNotRestored mac why => [.text mac, .text why.spoken]
  | .linksDeployed edits links => [.int edits, .text links.written]
  | .editNotUndone edit mac why =>
    [.text edit.verb, .int edit.slot, .text mac, .text why.spoken]
  | .outcomeDiscarded slot channel => [.int slot, .int channel]
  | .outcomeReported success channel slot =>
    [.text (if success then "succeeded" else "failed"), .int channel, .int slot]
  | .configurationKept configuration | .configurationDeployed configuration =>
    [.list configuration]
  | .slotOutcomeDiscarded slot | .noLinkToDelete slot => [.int slot]
  | .slotKept slot => [.int slot]
  | .transmissionRequested size destination => [.int size, destination]
  | .collision slot channel => [slot, .int channel]
  | .deviceRate device successes attempts =>
    [device, .float (successRate successes attempts), .int successes, .int attempts]
  | .channelRate channel successes attempts =>
    [.int channel, .float (successRate successes attempts)]
  | .totalRate successes attempts =>
    [.float (successRate successes attempts), .int successes, .int attempts]
  | .triggered value => [value]
  | .custom _ _ arguments => arguments
  | .activated | .nothingToLearnFrom | .summary .. | .simulationRunning | .simulationReset => []

end Remark

/-- An entry of the journal. -/
structure Note where
  topic : Topic
  timed : Bool
  sender : Option String
  remark : Remark

namespace Note

/-- The entry of a component of this library. -/
def ofComponent (topic : Topic) (sender : String) (remark : Remark) : Note :=
  { topic, timed := true, sender := some sender, remark }

/-- The wording of an entry behind its sender; only a text can stand there. -/
def wording (n : Note) : Except Fault String :=
  match n.sender, n.remark with
  | none, remark => .ok remark.template
  | some sender, .custom _ (.text template) _ => .ok (sender ++ ": " ++ template)
  | some _, .custom .. => .error .misfit
  | some sender, remark => .ok (sender ++ ": " ++ remark.template)

/-- Whether the time of an entry can be written: it has to be in the range of binary64. -/
def isDatable (n : Note) (time : Option Number) : Bool :=
  !n.timed || time.all fun t => t.toFloat?.isSome

/-- The text of an entry, behind its time if there is one; none if the arguments do not fit the
wording. The sender stands in front of the wording before the places are filled. -/
def text? (n : Note) (time : Option Number) : Option String := do
  let filled ← Text.fill (← n.wording.toOption) n.remark.arguments
  match n.timed, time with
  | true, some t =>
    return "[Time: " ++ Binary64.alignedRight 12 (Binary64.fixed 6 t.toFloat) ++ "] " ++ filled
  | _, _ => return filled

end Note

/-- A log of the entries that matter enough, the latest first, each with the time at which it
was made. -/
structure Log where
  threshold : Option Level
  entries : List (Option Number × Note)

namespace Log

def fresh (threshold : Option Level) : Log := ⟨threshold, []⟩

def keeps (l : Log) (n : Note) : Bool := l.threshold.any fun t => t.rank ≤ n.remark.level.rank

/-- Why an entry that would be kept cannot be made. -/
def obstacle? (time : Option Number) (n : Note) (l : Log) : Option Fault :=
  if l.keeps n then
    match n.wording with
    | .error f => some f
    | .ok _ => if n.isDatable time then none else some .tooLarge
  else none

def enter (time : Option Number) (n : Note) (l : Log) : Log :=
  if l.keeps n then { l with entries := (time, n) :: l.entries } else l

end Log

/-- States that keep a journal. -/
class Journal (σ : Type) where
  enter : Note → σ → σ
  obstacle? : Note → σ → Option Fault := fun _ _ => none

/-- Enters a note, unless something stands in its way. -/
def Action.note {σ : Type} [Journal σ] (n : Note) : Action σ Unit := fun s =>
  match Journal.obstacle? n s with
  | none => .ok () (Journal.enter n s)
  | some f => .error f s

/-- A part keeps its journal where its surroundings do. -/
instance {τ σ : Type} [Journal σ] : Journal (τ × σ) where
  enter n s := (s.1, Journal.enter n s.2)
  obstacle? n s := Journal.obstacle? n s.2

/-- A note leaves the part at hand as it is. -/
theorem Action.eq_of_note_eq_ok {τ σ : Type} [Journal σ] {n : Note} {a b : τ} {s t : σ} {u : Unit}
    (h : Action.note n (a, s) = .ok u (b, t)) : b = a := by
  unfold Action.note at h
  split at h <;> cases h
  rfl

end TschLearning
