import TschLearning.Journal
import TschLearning.OutcomeTracker
import TschLearning.Parameters
import TschLearning.ValueTable

/-! The two rules by which values are learned.

The lookahead rule goes over a slotframe and looks one slot ahead: with the channel
`c` of slot `t`, the reward `r` of its outcome and `alpha`, `gamma` of the parameters,
`V t c` becomes `(1 - alpha) * V t c + alpha * (r + gamma * max (V (t + 1)))`, and
`(1 - alpha) * V t c + alpha * r` in the last slot. Slots are visited in ascending
order, so each sees the values from before the pass.

The slot rule updates the value of the one slot that a transmission happened in. -/

namespace TschLearning

variable {α : Type}

structure Reward (α : Type) where
  reward : α
  slot : Nat
  channel : Nat
  old : α
  new : α

def Reward.enter (r : Reward α) (table : ValueTable α) : ValueTable α :=
  table.set r.slot r.channel r.new

/-- The outcome of a pass over a slotframe: the updates in the order in which they
were made, and what stopped the pass before its end. -/
structure Pass (α : Type) where
  table : ValueTable α
  rewards : List (Reward α)
  fault : Option Fault

variable [Arith α]

namespace Lookahead

/-- The new value of a cell: `next` is the largest value of the following slot, none
for the last one. -/
def target (p : Parameters α) (reward old : α) : Option α → α
  | none => (1 - p.alpha) * old + p.alpha * reward
  | some next => (1 - p.alpha) * old + p.alpha * (reward + p.gamma * next)

/-- The largest value of the slot that follows `slot`, none for the last one. -/
def bootstrap (table : ValueTable α) (slot : Nat) : Except Fault (Option α) :=
  if slot + 1 = table.slots then .ok none else some <$> table.maxOf (.int ((slot : Int) + 1))

/-- The update of the channel of a slot. -/
def step (p : Parameters α) (outcomes : OutcomeTracker) (table : ValueTable α) (slot : Nat)
    (channel : Datum) : Except Fault (Reward α) := do
  let reward := p.reward (← outcomes.succeeded (.int slot) channel)
  let old ← table.value (.int slot) channel
  let new := target p reward old (← bootstrap table slot)
  return { reward, slot, channel := ← table.checkChannel channel, old, new }

/-- Updates the channels of the slots from `slot` on. -/
def passFrom (p : Parameters α) (outcomes : OutcomeTracker) :
    ValueTable α → Nat → List Datum → Pass α
  | table, _, [] => { table, rewards := [], fault := none }
  | table, slot, channel :: rest =>
    match step p outcomes table slot channel with
    | .error f => { table, rewards := [], fault := some f }
    | .ok reward =>
      let rest := passFrom p outcomes (reward.enter table) (slot + 1) rest
      { rest with rewards := reward :: rest.rewards }

/-- Updates the channel of every slot. The configuration has to have one for each. -/
def pass (p : Parameters α) (outcomes : OutcomeTracker) (table : ValueTable α)
    (configuration : List Datum) : Pass α :=
  if configuration.length = table.slots then passFrom p outcomes table 0 configuration
  else { table, rewards := [], fault := some (.violated "") }

def label : String := "LookaheadUpdate"

/-- Applies the rule to a table, one update after the other. -/
def apply {σ : Type} [Journal σ] (p : Parameters α) (outcomes : OutcomeTracker)
    (configuration : List Datum) : Action (ValueTable α × σ) Unit := do
  let planned := pass p outcomes (← Action.part) configuration
  planned.rewards.forM fun r => do
    Action.change r.enter
    Action.note (.ofComponent .learning label (.rewardedChannel (Arith.shown r.reward) r.slot
      r.channel (Arith.shown r.old) (Arith.shown r.new)))
  match planned.fault with
  | some f => throw f
  | none => pure ()

end Lookahead

namespace SlotReward

/-- The new value of the slot of a transmission: `best` is the largest value of the
whole table. -/
def target (p : Parameters α) (reward old best : α) : α :=
  (1 - p.alpha) * old + p.alpha * (reward + p.gamma * best - old)

/-- The update of the value of a slot on the first channel. -/
def step (p : Parameters α) (table : ValueTable α) (slot : Datum) (success : Bool) :
    Except Fault (Reward α) := do
  let reward := p.reward success
  let old ← table.value slot (.int 0)
  return { reward, slot := ← table.checkSlot slot, channel := 0, old,
           new := target p reward old table.largest }

def label : String := "SlotRewardUpdate"

/-- Applies the rule to a table; gives the new value. -/
def apply {σ : Type} [Journal σ] (p : Parameters α) (slot : Datum) (success : Bool) :
    Action (ValueTable α × σ) α := do
  let r ← Action.ofExcept (step p (← Action.part) slot success)
  Action.change r.enter
  Action.note (.ofComponent .learning label
    (.rewardedSlot (Arith.shown r.reward) r.slot (Arith.shown r.old) (Arith.shown r.new)))
  return r.new

end SlotReward
end TschLearning
