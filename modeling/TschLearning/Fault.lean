import TschLearning.Datum.Written
import TschLearning.Kind

/-! Why an operation fails. Every cause that a component states itself has a
message; the others come out of plain arithmetic, indexing or scheduling. A MAC
layer's refusals form a family of their own: deployers answer them by rolling
back, every other fault goes through. -/

namespace TschLearning

inductive ScriptedKind where
  | macRejected | deploymentError | valueError | runtimeError
deriving DecidableEq, Repr

inductive Fault where
  | notAnIndex (owner name : String) (got : Datum)
  | indexOutOfRange (owner name : String) (index : Int) (bound : Datum)
  | badDimension (name : String) (got : Datum)
  | notAProbability (name : String) (got : Datum)
  | mustNotBeNegative (name : String) (got : Datum)
  | mustBePositive (name : String) (got : Datum)
  | unknownParameters (names : List String)
  | noSuchParameter (name : String)
  | parametersAreFixed
  | badSlotNumber (got : Datum)
  | slotNumberNotLater (who : String) (got last : Nat)
  | linkTableFull (mac : String) (capacity : Datum)
  | sequenceLength (mac : String) (length : Nat) (slots : Datum)
  | foreignSlotframe (mac : String)
  | interferenceCoverage (covered : Nat) (expected : Datum)
  | noFailureProbabilities
  | failureProbabilityRange
  | tooFewNodes (count : Datum)
  | wrongKind (caller : String) (got : Kind) (expected : KindChoice)
  | violated (condition : String)
  | noLength (kind : Kind)
  | requestsUnsupported
  | scripted (kind : ScriptedKind) (text : String)
  | incomparable
  | notNumeric
  -- a value that there is no arithmetic with the numbers of a row for
  | foreignOperand
  -- a value that stands for no number of the kind wanted, though others like it do
  | unreadable
  | tooLarge
  | divisionByZero
  | positionOutOfRange
  | notAnInteger
  -- a value that cannot be found again by what it is equal to
  | unhashable
  | missingKey
  -- more or fewer values than an operation asks for, or some by names of which it has none
  | misfit
  | noSuchOperation
  | notASequence
  | outOfMemory
  | tooDeep
  | badSeed
  | emptyRange
  | noSimulation
  | notInFuture
  | negativeDelay
  | alreadyTriggered
  | neverHappened
  -- a simulation that ran dry though the event it waited for had been triggered
  | happenedElsewhere
  | noObject

namespace Fault

/-- Whether the fault is a MAC layer's refusal of a schedule edit. -/
def isRefusal : Fault → Bool
  | .linkTableFull .. => true
  | .sequenceLength .. => true
  | .scripted .macRejected _ => true
  | .scripted .deploymentError _ => true
  | _ => false

/-- The message of a fault that a component states itself. -/
def message? : Fault → Option String
  | .notAnIndex owner name got => some (owner ++ name ++ " must be an integer, got " ++ got.written)
  | .indexOutOfRange owner name index bound =>
    some (owner ++ name ++ s!" {index} out of range [0, " ++ bound.spoken ++ ")")
  | .badDimension name got => some (name ++ " has to be a positive integer, got " ++ got.written)
  | .notAProbability name got => some (name ++ " has to be within [0, 1], got " ++ got.spoken)
  | .mustNotBeNegative name got => some (name ++ " must not be negative, got " ++ got.spoken)
  | .mustBePositive name got => some (name ++ " has to be positive, got " ++ got.spoken)
  | .unknownParameters names => some ("Unknown learning parameters: " ++ ", ".intercalate names)
  | .noSuchParameter name => some name
  | .parametersAreFixed => some "LearningParameters are immutable"
  | .badSlotNumber got =>
    some ("absolute slot numbers have to be non-negative integers, got " ++ got.written)
  | .slotNumberNotLater who got last =>
    some (who ++ s!": absolute slot number {got} does not follow {last}")
  | .linkTableFull mac capacity =>
    some (mac ++ ": link table full (" ++ capacity.spoken ++ " links)")
  | .sequenceLength mac length slots =>
    some (mac ++ s!": hopping sequence of length {length} does not match " ++ slots.spoken
      ++ " slots")
  | .foreignSlotframe mac => some (mac ++ " does not match the network's slotframe")
  | .interferenceCoverage covered expected =>
    some (s!"interference model covers {covered} channels, expected " ++ expected.spoken)
  | .noFailureProbabilities => some "expected a non-empty list of failure probabilities"
  | .failureProbabilityRange => some "failure probabilities have to be within [0, 1]"
  | .tooFewNodes count =>
    some ("at least a sink and one sending node are required, got " ++ count.spoken)
  | .wrongKind caller got expected =>
    some (caller ++ ": Got object of invalid type " ++ got.written ++ ". Expected type(s): "
      ++ expected.written)
  | .violated condition => some condition
  | .noLength kind => some ("object of type '" ++ kind.name ++ "' has no len()")
  | .requestsUnsupported => some ""
  | .scripted _ text => some text
  | _ => none

def spoken (f : Fault) : String := f.message?.getD ""

end Fault
end TschLearning
