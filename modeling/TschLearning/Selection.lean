import TschLearning.Draws
import TschLearning.Journal
import TschLearning.PeakingTable
import TschLearning.ValueTable

/-! Epsilon-greedy choices. A choice explores with probability `epsilon` and takes
the best known alternative otherwise; one that must not explore draws nothing. -/

namespace TschLearning

variable {σ α : Type} [Journal σ] [Arith α]

namespace Selection

/-- The names under which the two kinds of choices appear. -/
def channelLabel : String := "ChannelSelector"
def slotLabel : String := "SlotSelector"

def explores (draws : Draws σ α) (epsilon : α) (mayExplore : Bool) : Action σ Bool := do
  if mayExplore then
    return Arith.lt (← draws.uniform) epsilon
  else return false

/-- Chooses a channel for a slot: a random one if it explores, the one with the
largest value otherwise. -/
def chooseChannel (draws : Draws σ α) (table : ValueTable α) (epsilon : α) (slot : Datum)
    (mayExplore : Bool) : Action σ Int := do
  let slot ← Action.ofExcept
    (checkIndex (possessive ("<" ++ channelLabel ++ ">")) "slot" table.slots slot)
  if ← explores draws epsilon mayExplore then
    let channel ← draws.below table.channels
    Action.note (.ofComponent .policy channelLabel (.exploredChannel slot channel))
    return channel
  else
    let channel := table.bestIn slot
    Action.note (.ofComponent .policy channelLabel (.exploitedChannel slot channel))
    return channel

/-- Chooses a slot: the quietest one if it explores, the one with the largest value
otherwise. -/
def chooseSlot (draws : Draws σ α) (table : ValueTable α) (peaking : PeakingTable α)
    (epsilon : α) (mayExplore : Bool) : Action σ Nat := do
  if ← explores draws epsilon mayExplore then
    let slot := peaking.quietest
    Action.note (.ofComponent .policy slotLabel (.exploredSlot slot))
    return slot
  else
    let slot := table.bestSlot
    Action.note (.ofComponent .policy slotLabel (.exploitedSlot slot))
    return slot

def checkEpsilon (epsilon : Datum) : Except Fault Unit := do
  if !(← epsilon.comparable).isProbability then throw (.notAProbability "epsilon" epsilon)

end Selection
end TschLearning
