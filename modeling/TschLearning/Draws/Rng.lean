import TschLearning.Draws.Permuted
import TschLearning.Draws.Scripted

/-! Generators of either kind, and the seeds that they come from. -/

namespace TschLearning

/-- A generator, scripted or seeded. -/
inductive Rng where
  | scripted (g : Scripted)
  | permuted (g : Permuted)

namespace Rng

/-- The words of a seed that is written out, in hexadecimal behind a mark or else in decimal. -/
def textWords (s : String) : Except Fault (List UInt32) :=
  let seed := if s.startsWith "0x" then Text.hexadecimal? s
    else if s.toList.head?.any Char.isDigit then (Text.integer? s).map Int.toNat else none
  match seed with
  | some n => .ok (SeedSequence.words n)
  | none => .error .unreadable

/-- The words of a seed: those of an integer, or those of several seeds one after the other. -/
def seedWords : Datum → Except Fault (List UInt32)
  | .int i => if i < 0 then .error .badSeed else .ok (SeedSequence.words i.toNat)
  | .bool b => .ok [if b then 1 else 0]
  | .list items => return (← items.attach.mapM fun ⟨d, _⟩ => seedWords d).flatten
  | .dict entries => return (← entries.mapM fun e => textWords e.1).flatten
  | .text s => textWords s
  | _ => .error .notAnInteger

/-- The generator of a seed; without one any will do. A text or a dictionary is a seed only beside
others. -/
def ofSeed : Datum → Except Fault Rng
  | .null => .ok (.permuted (.ofSeed []))
  | .text _ | .dict _ => .error .notAnInteger
  | d => return .permuted (.ofSeed (← seedWords d))

def ofScript (numbers : List Float) : Rng := .scripted ⟨numbers.toArray, 0⟩

/-- The number of draws made so far, where that is known. -/
def used? : Rng → Option Nat
  | .scripted g => some g.used
  | .permuted _ => none

def uniform : Rng → Float × Rng
  | .scripted g => let (u, g) := g.uniform; (u, .scripted g)
  | .permuted g => let (u, g) := g.uniform; (u, .permuted g)

def below (bound : Nat) : Rng → Except Fault Int × Rng
  | .scripted g => let (i, g) := g.below bound; (i, .scripted g)
  | .permuted g => let (n, g) := g.below bound; (.ok n, .permuted g)

end Rng

instance : Generator Rng Float where
  uniform := Rng.uniform
  below := Rng.below

end TschLearning
