import TschLearning.Network
import TschLearning.Simulation

/-! A network as a process of a simulation: it runs a slot, waits for the duration of a
slot, and goes on with the next one. -/

namespace TschLearning.Network

variable {μ κ ο σ α : Type} [DecidableEq μ] [DecidableEq κ] [Arith α] [Journal σ]

omit [DecidableEq μ] [DecidableEq κ] [Arith α] [Journal σ] in
/-- A bound on the slots that start within a span of time. Rounding can make a slot
shorter than it should be, though not by half. -/
def slotBound (net : Network μ ο α) (span : Number) : Nat :=
  match net.slotDuration with
  | .ok duration => 2 * span.stepsToCover duration + 2
  | .error _ => 2

/-- The process of the one network of a world. -/
def program (env : Surroundings μ κ ο σ α) : Program Unit (Network μ ο α × σ) where
  resume _ _ := do
    Simulation.inWorld (advance env)
    return .delay (← Action.ofExcept (← get).world.1.slotDuration) .null ()
  resumptions w span _ := slotBound w.1 span
  reserve _ := 0

end TschLearning.Network
