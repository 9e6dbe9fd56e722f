import TschLearning.Datum.Conversion
import TschLearning.Journal
import TschLearning.Mac.Access

/-! Deployment by link edits. The edits that lead from the schedule deployed last to the
new one are made at one MAC layer after the other. If one of them is refused, those
that were made are taken back in reverse order, as far as the MAC layers let it. -/

namespace TschLearning

structure LinkDeployer (μ : Type) where
  macs : List μ
  last : Links
  failures : Nat

namespace LinkDeployer

variable {μ σ : Type} [Journal σ]

def label : String := "LinkDeployer"

def create (macs : List μ) : LinkDeployer μ := { macs, last := .empty, failures := 0 }

def edit (access : MacAccess μ σ) (m : μ) : LinkEdit → Action σ Unit
  | .delete slot _ => access.deleteLink m slot
  | .add slot channel => access.addLink m slot channel

/-- Makes edits in order. Gives those that were made before the first refusal, the
latest first, and the refusal. -/
def applyAll (access : MacAccess μ σ) :
    List (μ × LinkEdit) → List (μ × LinkEdit) → Action σ (List (μ × LinkEdit) × Option Fault)
  | made, [] => pure (made, none)
  | made, (m, e) :: rest => do
    match ← (edit access m e).refusal? with
    | some why => return (made, some why)
    | none => applyAll access ((m, e) :: made) rest

def undoAll (access : MacAccess μ σ) : List (μ × LinkEdit) → Action σ Unit
  | [] => pure ()
  | (m, e) :: rest => do
    if let some why ← (edit access m e.undo).refusal? then
      Action.note (.ofComponent .deployer label (.editNotUndone e (access.label m) why))
    undoAll access rest

def plan (d : LinkDeployer μ) (edits : List LinkEdit) : List (μ × LinkEdit) :=
  d.macs.flatMap fun m => edits.map fun e => (m, e)

/-- Deploys a schedule to every MAC layer; gives whether they all took it. -/
def deploy (access : MacAccess μ σ) (links : Links) : Action (LinkDeployer μ × σ) Bool := do
  let d ← Action.part
  let edits := LinkEdit.between d.last links
  match ← (applyAll access [] (d.plan edits)).outside with
  | (made, some why) =>
    (undoAll access made).outside
    Action.change fun d => { d with failures := d.failures + 1 }
    Action.note (.ofComponent .deployer label (.deploymentFailed why))
    return false
  | (_, none) =>
    Action.change fun d => { d with last := links }
    Action.note (.ofComponent .deployer label (.linksDeployed edits.length links))
    return true

/-- The schedule of a row of channels, one for every slot. -/
def linksOfItems (items : List Datum) : Except Fault Links := do
  return .ofChannels (← items.mapM Datum.toInt)

/-- The schedule of rows of slots and channels. -/
def linksOfPairs (pairs : List (Datum × Datum)) : Except Fault Links := do
  return .ofPairs (← pairs.mapM fun e => return (← e.1.toInt, ← e.2.toInt))

end LinkDeployer
end TschLearning
