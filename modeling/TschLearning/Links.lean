import TschLearning.Lookup

/-! Link schedules: which channel is used in which slot, at most one a slot, and the
edits that turn one schedule into another. -/

namespace TschLearning

/-- A link schedule, its slots in the order of entry. -/
structure Links where
  entries : List (Int × Int)
deriving DecidableEq

namespace Links

def empty : Links := ⟨[]⟩

def channelIn? (slot : Int) : List (Int × Int) → Option Int
  | [] => none
  | e :: rest => if e.1 = slot then some e.2 else channelIn? slot rest

def channel? (l : Links) (slot : Int) : Option Int := channelIn? slot l.entries

def contains (l : Links) (slot : Int) : Bool := (l.channel? slot).isSome

def size (l : Links) : Nat := l.entries.length

def slots (l : Links) : List Int := l.entries.map (·.1)

/-- Puts a link into a slot. A link that was there keeps its place. -/
def insert (l : Links) (slot channel : Int) : Links :=
  if l.contains slot then
    ⟨l.entries.map fun e => if e.1 = slot then (slot, channel) else e⟩
  else ⟨l.entries ++ [(slot, channel)]⟩

/-- Takes the link out of a slot. -/
def erase (l : Links) (slot : Int) : Links := ⟨l.entries.filter fun e => e.1 ≠ slot⟩

/-- The schedule of rows of slots and channels; a later entry of a slot replaces an
earlier one. -/
def ofPairs (pairs : List (Int × Int)) : Links :=
  pairs.foldl (fun l e => l.insert e.1 e.2) empty

/-- The schedule that gives a channel to every slot. -/
def ofChannels (channels : List Int) : Links :=
  ⟨channels.zipIdx.map fun e => ((e.2 : Int), e.1)⟩

def written (l : Links) : String :=
  "\x7b" ++ ", ".intercalate (l.entries.map fun e => s!"{e.1}: {e.2}") ++ "\x7d"

def sorted (l : Links) : List (Int × Int) := l.entries.mergeSort fun a b => decide (a.1 ≤ b.1)

theorem channelIn?_eq_lookup (slot : Int) (entries : List (Int × Int)) :
    channelIn? slot entries = entries.lookup slot := by
  induction entries with
  | nil => rfl
  | cons e rest ih =>
    obtain ⟨s, c⟩ := e
    rw [lookup_cons_ite, ← ih, channelIn?]
    simp only [eq_comm]

@[simp] theorem channel?_empty (slot : Int) : empty.channel? slot = none := rfl

theorem channel?_insert (l : Links) (slot channel s : Int) :
    (l.insert slot channel).channel? s = if s = slot then some channel else l.channel? s := by
  unfold insert contains channel?
  simp only [channelIn?_eq_lookup]
  split
  · rename_i h
    rw [lookup_map_replace]
    split
    · subst_vars
      obtain ⟨c, hc⟩ := Option.isSome_iff_exists.1 h
      simp [hc]
    · rfl
  · rename_i h
    rw [lookup_append_singleton]
    split
    · subst_vars
      rw [Option.not_isSome_iff_eq_none.1 h, Option.none_or]
    · rw [Option.or_none]

theorem channel?_erase (l : Links) (slot s : Int) :
    (l.erase slot).channel? s = if s = slot then none else l.channel? s := by
  unfold erase channel?
  simp only [channelIn?_eq_lookup]
  exact lookup_filter_ne s slot l.entries

end Links

/-- An edit of a link schedule. -/
inductive LinkEdit where
  | delete (slot channel : Int)
  | add (slot channel : Int)
deriving DecidableEq, Repr

namespace LinkEdit

/-- The edit that takes another one back. -/
def undo : LinkEdit → LinkEdit
  | .delete s c => .add s c
  | .add s c => .delete s c

def slot : LinkEdit → Int
  | .delete s _ => s
  | .add s _ => s

def verb : LinkEdit → String
  | .delete .. => "delete"
  | .add .. => "add"

def apply (l : Links) : LinkEdit → Links
  | .delete s _ => l.erase s
  | .add s c => l.insert s c

/-- The edits of a slot that has one channel and is to have another one. -/
def ofChange (slot : Int) (old new : Option Int) : List LinkEdit :=
  if old = new then []
  else (old.map (LinkEdit.delete slot)).toList ++ (new.map (LinkEdit.add slot)).toList

def ofSlot (old new : Links) (slot : Int) : List LinkEdit :=
  ofChange slot (old.channel? slot) (new.channel? slot)

/-- The edits that turn one schedule into another, slot by slot in ascending order:
where the channel changes, the old link goes before the new one comes. -/
def between (old new : Links) : List LinkEdit :=
  let slots := old.slots ++ new.slots.filter fun s => !old.contains s
  (slots.mergeSort fun a b => decide (a ≤ b)).flatMap (ofSlot old new)

end LinkEdit
end TschLearning
