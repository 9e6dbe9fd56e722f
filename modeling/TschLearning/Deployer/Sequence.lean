import TschLearning.HoppingSequence
import TschLearning.Journal
import TschLearning.Mac.Access

/-! Deployment of whole slotframes. No MAC layer is touched before all of them have
accepted the hopping sequence. If one refuses it later all the same, those that have
it already are given the previous sequence again, as far as they take it. -/

namespace TschLearning

structure SequenceDeployer (μ : Type) where
  macs : List μ
  last : Option HoppingSequence
  failures : Nat

namespace SequenceDeployer

variable {μ σ : Type} [Journal σ]

def label : String := "HoppingSequenceDeployer"

def create (macs : List μ) : SequenceDeployer μ := { macs, last := none, failures := 0 }

/-- Asks the MAC layers in turn; gives the first refusal. -/
def checkAll (access : MacAccess μ σ) (channels : List Int) : List μ → Action σ (Option Fault)
  | [] => pure none
  | m :: rest => do
    match ← (access.checkSequence m channels).refusal? with
    | some why => return some why
    | none => checkAll access channels rest

/-- Sets the sequence of the MAC layers in turn; gives those that took it, and the
first refusal. -/
def setAll (access : MacAccess μ σ) (channels : List Int) :
    List μ → Action σ (List μ × Option Fault)
  | [] => pure ([], none)
  | m :: rest => do
    match ← (access.setSequence m channels).refusal? with
    | some why => return ([], some why)
    | none =>
      let (updated, refusal) ← setAll access channels rest
      return (m :: updated, refusal)

/-- Gives every MAC layer that was updated the previous sequence again. -/
def restoreAll (access : MacAccess μ σ) (channels : List Int) : List μ → Action σ Unit
  | [] => pure ()
  | m :: rest => do
    if let some why ← (access.setSequence m channels).refusal? then
      Action.note (.ofComponent .deployer label (.sequenceNotRestored (access.label m) why))
    restoreAll access channels rest

def rollback (access : MacAccess μ σ) (d : SequenceDeployer μ) (updated : List μ) : Action σ Unit :=
  match d.last with
  | some previous => restoreAll access previous.channels updated
  | none =>
    if updated.isEmpty then pure ()
    else Action.note (.ofComponent .deployer label (.nothingToRestore (updated.map access.label)))

def giveUp (access : MacAccess μ σ) (updated : List μ) (why : Fault) :
    Action (SequenceDeployer μ × σ) Bool := do
  let d ← Action.part
  (rollback access d updated).outside
  Action.change fun d => { d with failures := d.failures + 1 }
  Action.note (.ofComponent .deployer label (.deploymentFailed why))
  return false

/-- Deploys a sequence to every MAC layer; gives whether they all took it. -/
def deploy (access : MacAccess μ σ) (sequence : HoppingSequence) :
    Action (SequenceDeployer μ × σ) Bool := do
  let d ← Action.part
  match ← (checkAll access sequence.channels d.macs).outside with
  | some why => giveUp access [] why
  | none =>
    match ← (setAll access sequence.channels d.macs).outside with
    | (updated, some why) => giveUp access updated why
    | (_, none) =>
      Action.change fun d => { d with last := some sequence }
      Action.note (.ofComponent .deployer label (.sequenceDeployed sequence))
      return true

end SequenceDeployer
end TschLearning
