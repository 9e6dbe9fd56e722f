import TschLearning.Action
import TschLearning.Word

/-! Random draws as the schedulers and the network ask for them. Where they come
from is left to the surroundings, so what is proved of the schedulers holds for
every stream of draws. -/

namespace TschLearning

/-- A source of random draws. -/
structure Draws (σ α : Type) where
  uniform : Action σ α
  below : Nat → Action σ Int

/-- Generators that yield draws of numbers `α` one after the other. A draw of an integer can
fail, which uses it up all the same. -/
class Generator (ρ : Type) (α : outParam Type) where
  uniform : ρ → α × ρ
  below : Nat → ρ → Except Fault Int × ρ

namespace Generator

variable {ρ α : Type} [Generator ρ α]

def drawUniform : Action ρ α := fun r => let (u, r) := uniform r; .ok u r

def drawBelow (bound : Nat) : Action ρ Int := fun r =>
  match below bound r with
  | (.ok i, r) => .ok i r
  | (.error f, r) => .error f r

end Generator

namespace Draws

variable {σ τ α : Type}

/-- Some integers below a bound, drawn one after the other. -/
def each (d : Draws σ α) (bound : Nat) : Nat → Action σ (List Int)
  | 0 => pure []
  | count + 1 => do
    let i ← d.below bound
    return i :: (← d.each bound count)

/-- A row of integers below a bound, which have to have 64 bits. -/
def row (d : Draws σ α) (bound count : Nat) : Action σ (List Int) := do
  let drawn ← d.each bound count
  if drawn.all Word.isSigned then return drawn else throw .tooLarge

def outside (d : Draws σ α) : Draws (τ × σ) α where
  uniform := d.uniform.outside
  below n := (d.below n).outside

def ofGenerator {ρ : Type} [Generator ρ α] (get : σ → ρ) (put : ρ → σ → σ) : Draws σ α where
  uniform := Generator.drawUniform.alone get put
  below n := (Generator.drawBelow n).alone get put

end Draws
end TschLearning
