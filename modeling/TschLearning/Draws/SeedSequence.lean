/-! Seed sequences: integers of any size hashed into the 256 bits that a generator starts
from. All arithmetic is on 32-bit words and wraps. -/

namespace TschLearning.SeedSequence

/-- The 32-bit words of a seed, the least significant first, at least one. `steps` bounds
their number. -/
def wordsFrom : Nat → Nat → List UInt32
  | 0, _ => []
  | steps + 1, n =>
    let word := n.toUInt32
    if n < 0x100000000 then [word] else word :: wordsFrom steps (n >>> 32)

def words (seed : Nat) : List UInt32 := wordsFrom (seed.log2 / 32 + 1) seed

/-- Folds the upper half of a word into the lower one. -/
def fold (v : UInt32) : UInt32 := v ^^^ (v >>> 16)

/-- Hashes a word with a running key; gives the next key too. -/
def hash (multiplier key v : UInt32) : UInt32 × UInt32 :=
  let v := v ^^^ key
  let key := key * multiplier
  (fold (v * key), key)

/-- Joins two words into one. -/
def mix (x y : UInt32) : UInt32 := fold (x * 0xca01f9dd - y * 0x4973f715)

/-- The pool that seeds are hashed into, and the running key. -/
structure Pool where
  words : Vector UInt32 4
  key : UInt32

def Pool.hash (p : Pool) (v : UInt32) : UInt32 × Pool :=
  let (h, key) := SeedSequence.hash 0x931e8875 p.key v
  (h, { p with key })

/-- Mixes the hash of a word into one of the pool. -/
def Pool.absorb (p : Pool) (target : Fin 4) (v : UInt32) : Pool :=
  let (h, p) := p.hash v
  { p with words := p.words.set target (mix p.words[target] h) }

def places : List (Fin 4) := [0, 1, 2, 3]

/-- Starts the pool with the first words of a seed. -/
def Pool.fill (seed : List UInt32) : Pool :=
  places.foldl
    (fun p (i : Fin 4) =>
      let (h, p) := p.hash (seed.getD i 0)
      { p with words := p.words.set i h })
    ⟨Vector.replicate 4 0, 0x43b0d7e5⟩

/-- Mixes every word of the pool into every other one. -/
def Pool.stir (p : Pool) : Pool :=
  places.foldl
    (fun p s =>
      places.foldl (fun p d => if s = d then p else p.absorb d p.words[s]) p)
    p

/-- The pool of the words of a seed: those beyond the fourth are mixed into every place. -/
def pool (ws : List UInt32) : Pool :=
  (ws.drop 4).foldl (fun p w => places.foldl (fun p d => p.absorb d w) p) (Pool.fill ws).stir

/-- Draws words from the pool, going round and round. -/
def output (p : Pool) : Nat → Nat → UInt32 → List UInt32
  | 0, _, _ => []
  | count + 1, i, key =>
    let (h, key) := hash 0x58f38ded key (p.words.get ⟨i % 4, Nat.mod_lt _ (by decide)⟩)
    h :: output p count (i + 1) key

/-- Joins words by twos, the lower one first. -/
def pairUp : List UInt32 → List UInt64
  | low :: high :: rest => (low.toUInt64 ||| (high.toUInt64 <<< 32)) :: pairUp rest
  | _ => []

/-- The four 64-bit words that a generator starts from. -/
def generate (ws : List UInt32) : List UInt64 := pairUp (output (pool ws) 8 0 0x8b51f9dd)

end TschLearning.SeedSequence
