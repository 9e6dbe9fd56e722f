/-! Integers of 64 bits, with a sign or without one. -/

namespace TschLearning.Word

/-- The first integer that is too large for 64 bits with a sign. -/
def limit : Int := 0x8000000000000000

def isSigned (i : Int) : Bool := decide (-limit ≤ i ∧ i < limit)

def fits (i : Int) : Bool := decide (-limit ≤ i ∧ i < 2 * limit)

/-- The integer without a sign that has the last 64 bits of another one. -/
def unsigned (i : Int) : Int := i % (2 * limit)

/-- The integer with a sign that has the same 64 bits. -/
def signed (i : Int) : Int := if i < limit then i else i - 2 * limit

end TschLearning.Word
