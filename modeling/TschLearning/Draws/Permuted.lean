import TschLearning.Draws
import TschLearning.Draws.SeedSequence

/-! The permuted congruential generator with 128 bits of state and 64 bits of output. A
draw of 32 bits takes half of a 64-bit one and keeps the other half for the next. -/

namespace TschLearning

/-- A state of the generator; state and increment are taken modulo `2 ^ 128`. -/
structure Permuted where
  state : Nat
  increment : Nat
  -- the half that is left of the last 64-bit draw
  spare : Option UInt32
deriving DecidableEq, Repr

namespace Permuted

def modulus : Nat := 0x100000000000000000000000000000000

def multiplier : Nat := 0x2360ed051fc65da44385df649fccf645

def step (g : Permuted) : Permuted :=
  { g with state := (g.state * multiplier + g.increment) % modulus }

def ofWords (start stream : Nat) : Permuted :=
  let g : Permuted := ⟨0, (stream * 2 + 1) % modulus, none⟩
  let g := g.step
  { g with state := (g.state + start) % modulus }.step

/-- Joins two 64-bit words, the upper one first. -/
def joined (high low : UInt64) : Nat := (high.toNat <<< 64) + low.toNat

/-- The generator of a seed, given by its words. -/
def ofSeed (seed : List UInt32) : Permuted :=
  match SeedSequence.generate seed with
  | [a, b, c, d] => ofWords (joined a b) (joined c d)
  | _ => ofWords 0 0

def rotateRight (x : UInt64) (n : Nat) : UInt64 :=
  (x >>> n.toUInt64) ||| (x <<< ((64 - n) % 64).toUInt64)

/-- Draws 64 bits: the two halves of the state joined and turned by its upper bits. -/
def next64 (g : Permuted) : UInt64 × Permuted :=
  let g := g.step
  let x := (g.state >>> 64).toUInt64 ^^^ g.state.toUInt64
  (rotateRight x (g.state >>> 122), g)

def next32 (g : Permuted) : UInt32 × Permuted :=
  match g.spare with
  | some w => (w, { g with spare := none })
  | none =>
    let (x, g) := g.next64
    (x.toUInt32, { g with spare := some (x >>> 32).toUInt32 })

/-- A number of `[0, 1)` with 53 random bits. -/
def uniform (g : Permuted) : Float × Permuted :=
  let (x, g) := g.next64
  (Float.ofNat (x >>> 11).toNat / 9007199254740992.0, g)

def range32 : Nat := 0x100000000

/-- Draws products of a bound and 32 bits until the lower half of one is out of the
region that would favour some results; `tries` bounds the draws. -/
def boundedFrom (bound : Nat) : Nat → Permuted → Nat × Permuted
  | 0, g => (0, g)
  | tries + 1, g =>
    let (w, g) := g.next32
    let m := w.toNat * bound
    if m % range32 < (range32 - bound) % bound then boundedFrom bound tries g
    else (m / range32, g)

def range64 : Nat := 0x10000000000000000

/-- The same for bounds beyond `2 ^ 32`, with draws of 64 bits. -/
def wideFrom (bound : Nat) : Nat → Permuted → Nat × Permuted
  | 0, g => (0, g)
  | tries + 1, g =>
    let (w, g) := g.next64
    let m := w.toNat * bound
    if m % range64 < (range64 - bound) % bound then wideFrom bound tries g
    else (m / range64, g)

/-- A number below a bound of at most `2 ^ 63`; a bound of one needs no draw. -/
def below (bound : Nat) (g : Permuted) : Nat × Permuted :=
  if bound ≤ 1 then (0, g)
  else if bound ≤ range32 then boundedFrom bound 1000 g
  else wideFrom bound 1000 g

end Permuted

instance : Generator Permuted Float where
  uniform := Permuted.uniform
  below bound g := let (n, g) := g.below bound; (.ok n, g)

end TschLearning
