import TschLearning.Deployer.Link
import TschLearning.Deployer.Sequence

/-! Deployers of either kind, and the configurations handed to them. -/

namespace TschLearning

/-- How a schedule is handed to the MAC layers. -/
inductive DeployMode where
  | hoppingSequence
  | links
deriving DecidableEq, Repr

/-- A configuration: a channel for every slot, or the slots in use with their channels. -/
inductive Configuration where
  | channels (items : List Datum)
  | pairs (entries : List (Datum × Datum))

inductive Deployer (μ : Type) where
  | sequence (d : SequenceDeployer μ)
  | links (d : LinkDeployer μ)

namespace Deployer

variable {μ σ : Type} [Journal σ]

def create (mode : DeployMode) (macs : List μ) : Deployer μ :=
  match mode with
  | .hoppingSequence => .sequence (.create macs)
  | .links => .links (.create macs)

def label : Deployer μ → String
  | .sequence _ => SequenceDeployer.label
  | .links _ => LinkDeployer.label

def macs : Deployer μ → List μ
  | .sequence d => d.macs
  | .links d => d.macs

def failures : Deployer μ → Nat
  | .sequence d => d.failures
  | .links d => d.failures

/-- Deploys a configuration; gives whether every MAC layer took it. -/
def deploy (access : MacAccess μ σ) (configuration : Configuration) :
    Action (Deployer μ × σ) Bool := do
  match ← Action.part with
  | .sequence d =>
    let items := match configuration with
      | .channels items => items
      | .pairs entries => entries.map (·.1)
    let sequence ← Action.ofExcept (HoppingSequence.ofItems items)
    Action.within (fun _ => d) (fun d _ => .sequence d) (SequenceDeployer.deploy access sequence)
  | .links d =>
    let links ← Action.ofExcept (match configuration with
      | .channels items => LinkDeployer.linksOfItems items
      | .pairs entries => LinkDeployer.linksOfPairs entries)
    Action.within (fun _ => d) (fun d _ => .links d) (LinkDeployer.deploy access links)

end Deployer
end TschLearning
