import TschLearning.Arith

/-! The annealed exploration rate `min cap (scale / asn)`: exploration is
front-loaded and tapers off as the absolute slot number grows. -/

namespace TschLearning

/-- What a schedule needs of its rates `β` and of slot numbers `ν`. -/
class Annealed (β ν : Type) where
  started : ν → Except Fault Bool
  dividedBy : β → ν → Except Fault β
  below : β → β → Except Fault Bool

structure EpsilonSchedule (β : Type) where
  scale : β
  cap : β

namespace EpsilonSchedule

def rate {β ν : Type} [Annealed β ν] (s : EpsilonSchedule β) (asn : ν) : Except Fault β := do
  if !(← Annealed.started β asn) then return s.cap
  let r ← Annealed.dividedBy s.scale asn
  return if ← Annealed.below ν r s.cap then r else s.cap

end EpsilonSchedule

instance {α : Type} [Arith α] : Annealed α Nat where
  started asn := .ok (0 < asn)
  dividedBy k asn := match Arith.dividedBy? k asn with
    | some r => .ok r
    | none => .error .tooLarge
  below a b := .ok (Arith.lt a b)

namespace Number

/-- A number in binary64 form, for a quotient. -/
def operand : Number → Except Fault Float
  | .float x => .ok x
  | .int i => match Binary64.ofInt? i with
    | some x => .ok x
    | none => .error .tooLarge

/-- The quotient by a number other than zero, rounded once. -/
def dividedBy : Number → Number → Except Fault Float
  | .int i, .int j => match Binary64.intQuotient? i j with
    | some q => .ok q
    | none => .error .tooLarge
  | a, b => do
    let x ← a.operand
    let y ← b.operand
    if y == 0.0 then throw .divisionByZero
    return x / y

end Number

/-- Schedules of values as they were handed over: the cap is given back as it is. -/
instance : Annealed Datum Datum where
  started asn := return !(← asn.comparable).le (.int 0)
  dividedBy k asn := return .float (← (← k.comparable).dividedBy (← asn.comparable))
  below a b := return (← a.comparable).lt (← b.comparable)

namespace EpsilonSchedule

/-- The schedule of a scale and a cap as they were handed over. -/
def create (scale cap : Datum) : Except Fault (EpsilonSchedule Datum) := do
  if (← scale.comparable).lt (.int 0) then throw (.mustNotBeNegative "k" scale)
  if !(← cap.comparable).isProbability then throw (.notAProbability "epsilon_cap" cap)
  return ⟨scale, cap⟩

def label (s : EpsilonSchedule Datum) : String :=
  "EpsilonSchedule(k=" ++ s.scale.spoken ++ ", epsilon_cap=" ++ s.cap.spoken ++ ")"

end EpsilonSchedule
end TschLearning
