import TschLearning.Index
import TschLearning.Journal
import TschLearning.Mac.Access

/-! The MAC layer of a simulated device. The device may transmit in the slots that it
owns and in which it has a link: one of its link table, or else the channel that its
hopping sequence gives to the slot. An operation that fails changes nothing. -/

namespace TschLearning

/-- A frame in the queue of a MAC layer, with the slot number of its request. -/
structure Frame where
  destination : Datum
  size : Datum
  asn : Option Nat

namespace Frame

def slotNumber (asn : Option Nat) : Datum := (asn.map fun n => Datum.int n).getD .null

/-- The frame as messages show it; its size has to be an integer. -/
def label (f : Frame) : Except Fault String :=
  match f.size.number? with
  | some (.int n) =>
    .ok ("Frame(destination=" ++ f.destination.spoken ++ s!", payloadSize={n}, asn="
      ++ (slotNumber f.asn).written ++ ")")
  | some (.float _) => .error .unreadable
  | none => match f.size with
    | .text _ => .error .unreadable
    | _ => .error .notNumeric

end Frame

/-- A simulated MAC layer; `κ` are the handles of sinks. The dimensions and the capacity are
kept as they were handed over, and looked at where an operation needs them. -/
structure Mac (κ : Type) where
  name : Datum
  slots : Datum
  channels : Datum
  owned : List Nat
  -- the capacity of the link table, unlimited if none
  capacity : Option Datum
  links : Links
  sequence : Option (List Int)
  queue : List Frame
  sink : Option κ
  asn : Option Nat

namespace Mac

variable {κ : Type}

/-- The kind of component, as it stands in front of the name of an index. -/
def ownerLabel : String := "<TschMac>"

def labelOf (name : Datum) : String := "TschMac('" ++ name.spoken ++ "')"

def label (m : Mac κ) : String := labelOf m.name

def checkSlot (m : Mac κ) (slot : Datum) : Except Fault Nat :=
  checkIndexBelow (possessive ownerLabel) "slot" m.slots slot

def checkChannel (m : Mac κ) (channel : Datum) : Except Fault Nat :=
  checkIndexBelow (possessive ownerLabel) "channel" m.channels channel

/-- Adds a slot to the owned ones in ascending order, once. -/
def insertOwned (slot : Nat) : List Nat → List Nat
  | [] => [slot]
  | s :: rest => if slot < s then slot :: s :: rest
    else if slot = s then s :: rest
    else s :: insertOwned slot rest

theorem mem_insertOwned (slot s : Nat) (owned : List Nat) :
    s ∈ insertOwned slot owned ↔ s = slot ∨ s ∈ owned := by
  induction owned with
  | nil => simp [insertOwned]
  | cons t rest ih =>
    unfold insertOwned
    split
    · simp
    · split
      · subst_vars
        simp
      · rw [List.mem_cons, ih, List.mem_cons, or_left_comm]

/-- A MAC layer without links. It owns every slot if none are given. -/
def create (name slots channels : Datum) (owned : Option (List Datum))
    (capacity : Option Datum) : Except Fault (Mac κ) := do
  let owned ← match owned with
    | none => pure (List.range (← slots.steps))
    | some items => do
      let checked ← items.mapM (checkIndexBelow (possessive ownerLabel) "owned slot" slots)
      pure (checked.foldr insertOwned [])
  return { name, slots, channels, owned, capacity, links := .empty, sequence := none, queue := [],
           sink := none, asn := none }

def deleteLink (m : Mac κ) (slot : Datum) : Except Fault (Option Remark × Mac κ) := do
  let s ← m.checkSlot slot
  return (if m.links.contains s then none else some (.noLinkToDelete s),
    { m with links := m.links.erase s })

/-- Whether a table of so many links leaves no room for another one. -/
def isFull (capacity : Option Datum) (size : Nat) : Except Fault Bool :=
  match capacity with
  | none => .ok false
  | some d => return (← d.comparable).le (.int size)

theorem isFull_int (capacity : Int) (size : Nat) :
    isFull (some (.int capacity)) size = .ok (decide (capacity ≤ size)) :=
  congrArg Except.ok (Number.le_int capacity size)

/-- Puts a link into a slot. A new one is refused once the link table is full. -/
def addLink (m : Mac κ) (slot channel : Datum) : Except Fault (Mac κ) := do
  let s ← m.checkSlot slot
  let c ← m.checkChannel channel
  if !m.links.contains s then
    if ← isFull m.capacity m.links.size then
      throw (.linkTableFull m.label (m.capacity.getD .null))
  return { m with links := m.links.insert s c }

/-- The channels of a hopping sequence for the whole slotframe. -/
def checkSequence (m : Mac κ) (channels : List Datum) : Except Fault (List Int) := do
  if !Datum.same (.int channels.length) m.slots then
    throw (.sequenceLength m.label channels.length m.slots)
  return (← channels.mapM m.checkChannel).map Int.ofNat

def setSequence (m : Mac κ) (channels : List Datum) : Except Fault (Mac κ) := do
  return { m with sequence := some (← m.checkSequence channels) }

def request (m : Mac κ) (destination size : Datum) : Mac κ :=
  { m with queue := m.queue ++ [⟨destination, size, m.asn⟩] }

/-- The channel that the device would transmit on in a slot. -/
def channelIn (m : Mac κ) (slot : Int) : Option Int :=
  if slot < 0 ∨ !m.owned.contains slot.toNat then none
  else match m.links.channel? slot with
    | some c => some c
    | none => m.sequence.bind (·[slot.toNat]?)

/-- The channel in a slot that was handed over by a number equal to it. A binary64 number finds
a link, but it is no position in a hopping sequence. -/
def channelNear (m : Mac κ) (slot : Number) : Except Fault (Option Int) :=
  match slot.truncated?.filter fun i => slot.same (.int i) with
  | none => .ok none
  | some i =>
    if 0 ≤ i ∧ m.owned.contains i.toNat ∧ !m.links.contains i ∧ m.sequence.isSome then
      .error .notAnInteger
    else .ok (m.channelIn i)

/-- The channel that the device would transmit on in a slot as it was handed over. -/
def channelFor (m : Mac κ) : Datum → Except Fault (Option Int)
  | .int i => .ok (m.channelIn i)
  | .bool b => .ok (m.channelIn (if b then 1 else 0))
  | .float x => m.channelNear (.float x)
  | .list _ | .dict _ => .error .unhashable
  | _ => .ok none

def popFrame (m : Mac κ) : Option Frame × Mac κ :=
  match m.queue with
  | [] => (none, m)
  | f :: rest => (some f, { m with queue := rest })

/-- Simulated MAC layers on a shelf, as deployers see them. -/
def access {μ σ : Type} [Journal σ] (shelf : Shelf μ (Mac κ) σ) (labels : μ → String) :
    MacAccess μ σ where
  label := labels
  deleteLink i slot := do
    let name := (← shelf.read i).label
    if let some remark ← shelf.update i (·.deleteLink (.int slot)) then
      Action.note (.ofComponent .mac name remark)
  addLink i slot channel := shelf.update i fun m => do
    return ((), ← m.addLink (.int slot) (.int channel))
  checkSequence i channels := shelf.update i fun m => do
    let _ ← m.checkSequence (Datum.ofInts channels)
    return ((), m)
  setSequence i channels := shelf.update i fun m => do
    return ((), ← m.setSequence (Datum.ofInts channels))
  request i destination size := shelf.update i fun m =>
    .ok ((), m.request destination (.int size))

end Mac
end TschLearning
