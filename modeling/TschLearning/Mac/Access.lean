import TschLearning.Action

/-! The contract that a MAC layer offers to the schedulers. Every operation that edits
the schedule may be refused. -/

namespace TschLearning

/-- MAC layers as a deployer sees them, each known by a handle `μ`. -/
structure MacAccess (μ σ : Type) where
  label : μ → String
  deleteLink : μ → Int → Action σ Unit
  addLink : μ → Int → Int → Action σ Unit
  checkSequence : μ → List Int → Action σ Unit
  setSequence : μ → List Int → Action σ Unit
  request : μ → Datum → Nat → Action σ Unit

namespace MacAccess

variable {μ σ τ : Type}

def outside (p : MacAccess μ σ) : MacAccess μ (τ × σ) where
  label := p.label
  deleteLink m s := (p.deleteLink m s).outside
  addLink m s c := (p.addLink m s c).outside
  checkSequence m cs := (p.checkSequence m cs).outside
  setSequence m cs := (p.setSequence m cs).outside
  request m d n := (p.request m d n).outside

end MacAccess
end TschLearning
