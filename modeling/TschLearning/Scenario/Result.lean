import TschLearning.Journal

/-! What a simulation run yields in the end. -/

namespace TschLearning

/-- The duration of a slot in the ready-made simulations, in seconds. -/
def slotLength : Number := .float 0.01

structure ScenarioResult where
  successes : Nat
  attempts : Nat
  -- the slots from request to confirmation, summed up over the confirmed requests
  delay : Nat
  confirmed : Nat
  slots : Nat

namespace ScenarioResult

def successRate (r : ScenarioResult) : Float := TschLearning.successRate r.successes r.attempts

def meanDelay (r : ScenarioResult) : Except Fault Float :=
  TschLearning.meanDelay r.delay r.confirmed

def label (r : ScenarioResult) : String :=
  "ScenarioResult(success_rate=" ++ Binary64.fixed 4 r.successRate
    ++ s!", success_count={r.successes}, total_count={r.attempts}, slots={r.slots})"

end ScenarioResult

def Note.ofScenario (remark : Remark) : Note :=
  { topic := .scenario, timed := true, sender := none, remark }

end TschLearning
