import TschLearning.Arith

/-! Learning parameters. A set of them is checked and converted when it is made and
never changes afterwards; a changed copy goes through the same checks. -/

namespace TschLearning

inductive ParameterName where
  | alpha | gamma | epsilon | sigma | successReward | failureReward | deactivationThreshold
  | epsilonCap | epsilonScale | packetProbability | packetSize | exploreWhileSettling
deriving DecidableEq, Repr

namespace ParameterName

def all : List ParameterName :=
  [.alpha, .gamma, .epsilon, .sigma, .successReward, .failureReward, .deactivationThreshold,
    .epsilonCap, .epsilonScale, .packetProbability, .packetSize, .exploreWhileSettling]

/-- The name as callers and messages use it. -/
def label : ParameterName → String
  | .alpha => "alpha"
  | .gamma => "gamma"
  | .epsilon => "epsilon"
  | .sigma => "sigma"
  | .successReward => "success_reward"
  | .failureReward => "failure_reward"
  | .deactivationThreshold => "deactivation_threshold"
  | .epsilonCap => "epsilon_cap"
  | .epsilonScale => "epsilon_scale"
  | .packetProbability => "packet_probability"
  | .packetSize => "packet_size"
  | .exploreWhileSettling => "explore_while_settling"

def ofLabel? (s : String) : Option ParameterName := all.find? (·.label == s)

end ParameterName

/-- A value for every parameter, not yet checked. -/
abbrev ParameterInput := ParameterName → Datum

namespace ParameterInput

def defaults : ParameterInput
  | .alpha => .float 0.1
  | .gamma => .float 0.95
  | .epsilon => .float 0.1
  | .sigma => .float 0.8
  | .successReward => .float 1.0
  | .failureReward => .float (-1.0)
  | .deactivationThreshold => .int 0
  | .epsilonCap => .float 0.5
  | .epsilonScale => .float 10000.0
  | .packetProbability => .float 0.03
  | .packetSize => .int 50
  | .exploreWhileSettling => .bool false

def override (v : ParameterInput) (changes : List (ParameterName × Datum)) : ParameterInput :=
  fun n => (changes.lookup n).getD (v n)

/-- The given values by name, and defaults for the others. -/
def ofEntries (given : List (String × Datum)) : Except Fault ParameterInput := do
  return defaults.override (← given.mapM fun e =>
    match ParameterName.ofLabel? e.1 with
    | some n => .ok (n, e.2)
    | none => .error .misfit)

end ParameterInput

structure Parameters (α : Type) where
  alpha : α
  gamma : α
  epsilon : α
  sigma : α
  successReward : α
  failureReward : α
  deactivationThreshold : Nat
  epsilonCap : α
  epsilonScale : α
  packetProbability : α
  packetSize : Nat
  exploreWhileSettling : Bool

namespace Parameters

/-- The reward of a transmission outcome. -/
def reward {α : Type} (p : Parameters α) (success : Bool) : α :=
  if success then p.successReward else p.failureReward

def checkProbability (name : String) (d : Datum) : Except Fault Unit := do
  if !(← d.comparable).isProbability then throw (.notAProbability name d)

def checkNotNegative (name : String) (d : Datum) : Except Fault Unit := do
  if (← d.comparable).lt (.int 0) then throw (.mustNotBeNegative name d)

def checkPositive (name : String) (d : Datum) : Except Fault Unit := do
  if (← d.comparable).le (.int 0) then throw (.mustBePositive name d)

/-- Checks the range of every value that has one. -/
def check (v : ParameterInput) : Except Fault Unit := do
  for n in [ParameterName.alpha, .gamma, .epsilon, .sigma, .epsilonCap, .packetProbability] do
    checkProbability n.label (v n)
  for n in [ParameterName.deactivationThreshold, .epsilonScale] do
    checkNotNegative n.label (v n)
  checkPositive ParameterName.packetSize.label (v .packetSize)

/-- The parameters of the given values: ranges are checked before any value is
converted, counts are rounded toward zero. -/
def ofInput (v : ParameterInput) : Except Fault (Parameters Float) := do
  check v
  return {
    alpha := ← (v .alpha).toFloat
    gamma := ← (v .gamma).toFloat
    epsilon := ← (v .epsilon).toFloat
    sigma := ← (v .sigma).toFloat
    successReward := ← (v .successReward).toFloat
    failureReward := ← (v .failureReward).toFloat
    deactivationThreshold := (← (v .deactivationThreshold).toInt).toNat
    epsilonCap := ← (v .epsilonCap).toFloat
    epsilonScale := ← (v .epsilonScale).toFloat
    packetProbability := ← (v .packetProbability).toFloat
    packetSize := (← (v .packetSize).toInt).toNat
    exploreWhileSettling := (v .exploreWhileSettling).truthy }

def toInput (p : Parameters Float) : ParameterInput
  | .alpha => .float p.alpha
  | .gamma => .float p.gamma
  | .epsilon => .float p.epsilon
  | .sigma => .float p.sigma
  | .successReward => .float p.successReward
  | .failureReward => .float p.failureReward
  | .deactivationThreshold => .int p.deactivationThreshold
  | .epsilonCap => .float p.epsilonCap
  | .epsilonScale => .float p.epsilonScale
  | .packetProbability => .float p.packetProbability
  | .packetSize => .int p.packetSize
  | .exploreWhileSettling => .bool p.exploreWhileSettling

/-- The changes by parameter. Names that are none are refused together. -/
def namedChanges (changes : List (String × Datum)) :
    Except Fault (List (ParameterName × Datum)) :=
  match changes.filter fun c => (ParameterName.ofLabel? c.1).isNone with
  | [] => .ok (changes.filterMap fun c => (ParameterName.ofLabel? c.1).map (·, c.2))
  | unknown =>
    .error (.unknownParameters ((unknown.map (·.1)).mergeSort fun a b => decide (a ≤ b)))

/-- A copy with some values replaced. -/
def replace (p : Parameters Float) (changes : List (String × Datum)) :
    Except Fault (Parameters Float) := do
  ofInput (p.toInput.override (← namedChanges changes))

/-- Whether two values of one parameter are equal. -/
def sameValue (a b : Datum) : Bool :=
  match a.number?, b.number? with
  | some x, some y => x.same y
  | _, _ => false

def same (p q : Parameters Float) : Bool :=
  ParameterName.all.all fun n => sameValue (p.toInput n) (q.toInput n)

def label (p : Parameters Float) : String :=
  "LearningParameters("
    ++ ", ".intercalate (ParameterName.all.map fun n => n.label ++ "=" ++ (p.toInput n).written)
    ++ ")"

def operations : List String := ["reward", "replace"]

/-- What stands under a name: the value of a parameter, all values, or an operation, which shows
the parameters that it is bound to. -/
def get (p : Parameters Float) (name : String) : Except Fault Datum :=
  match ParameterName.ofLabel? name with
  | some n => .ok (p.toInput n)
  | none =>
    if name = "_values" then .ok (.dict (ParameterName.all.map fun n => (n.label, p.toInput n)))
    else if operations.contains name then
      .ok (.text (s!"<bound method LearningParameters.{name} of " ++ p.label ++ ">"))
    else .error (.noSuchParameter name)

end Parameters
end TschLearning
