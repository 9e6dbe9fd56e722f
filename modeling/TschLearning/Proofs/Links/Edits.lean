import TschLearning.Proofs.Links.Distinct
import Mathlib.Data.List.Sort
import Mathlib.Logic.Function.Basic

/-! What edits do to a table of links, seen as the channel of every slot. The edits between
two schedules fit one another: each finds the table as it expects it, so each can be taken
back, and together they lead from the one schedule to the other. -/

namespace TschLearning

/-- The channel of every slot. -/
abbrev SlotTable := Int → Option Int

namespace LinkEdit

def channel : LinkEdit → Int
  | .delete _ c => c
  | .add _ c => c

@[simp] theorem slot_undo (e : LinkEdit) : e.undo.slot = e.slot := by cases e <;> rfl

@[simp] theorem channel_undo (e : LinkEdit) : e.undo.channel = e.channel := by cases e <;> rfl

/-- The table after an edit. -/
def on (t : SlotTable) : LinkEdit → SlotTable
  | .delete s _ => Function.update t s none
  | .add s c => Function.update t s (some c)

/-- The edit deletes a link that is there, or adds one where there is none. -/
def Fits (t : SlotTable) : LinkEdit → Prop
  | .delete s c => t s = some c
  | .add s _ => t s = none

def onAll (t : SlotTable) (edits : List LinkEdit) : SlotTable := edits.foldl on t

/-- Every edit fits the table that those before it leave. -/
def Chain : SlotTable → List LinkEdit → Prop
  | _, [] => True
  | t, e :: rest => e.Fits t ∧ Chain (e.on t) rest

theorem onAll_append (t : SlotTable) (a b : List LinkEdit) :
    onAll t (a ++ b) = onAll (onAll t a) b := List.foldl_append

theorem chain_append {t : SlotTable} {a b : List LinkEdit} (ha : Chain t a)
    (hb : Chain (onAll t a) b) : Chain t (a ++ b) := by
  induction a generalizing t with
  | nil => exact hb
  | cons e rest ih => exact ⟨ha.1, ih ha.2 hb⟩

theorem channel?_apply (l : Links) (e : LinkEdit) : (e.apply l).channel? = e.on l.channel? := by
  funext s
  cases e with
  | delete t c =>
    simp only [apply, on, Links.channel?_erase, Function.update_apply]
  | add t c =>
    simp only [apply, on, Links.channel?_insert, Function.update_apply]

/-- An edit changes its slot only. -/
theorem on_of_ne {e : LinkEdit} {s : Int} (h : s ≠ e.slot) (t : SlotTable) : e.on t s = t s := by
  cases e <;> exact Function.update_of_ne h ..

/-- What an edit makes of its slot is the same for every table. -/
theorem on_slot (e : LinkEdit) (t t' : SlotTable) : e.on t e.slot = e.on t' e.slot := by
  cases e <;> simp only [on, slot, Function.update_self]

/-- Taking an edit back restores the table. -/
theorem on_undo {t : SlotTable} {e : LinkEdit} (h : e.Fits t) : e.undo.on (e.on t) = t := by
  cases e with
  | delete s c =>
    simp only [undo, on, Function.update_idem]
    rw [← h, Function.update_eq_self]
  | add s c =>
    simp only [undo, on, Function.update_idem]
    rw [← h, Function.update_eq_self]

/-- An edit can be taken back from the table that it leaves. -/
theorem fits_undo {t : SlotTable} {e : LinkEdit} (_h : e.Fits t) : e.undo.Fits (e.on t) := by
  cases e <;> simp [undo, on, Fits]

/-! ### The edits between two schedules -/

/-- The edits of a slot fit a table that has its old channel, and give it the new one. -/
theorem chain_ofChange (t : SlotTable) (s : Int) (new : Option Int) :
    Chain t (ofChange s (t s) new) ∧ onAll t (ofChange s (t s) new) = Function.update t s new := by
  unfold ofChange
  split
  · rename_i h
    exact ⟨trivial, by rw [← h, Function.update_eq_self]; rfl⟩
  · rename_i hne
    cases hs : t s with
    | none =>
      cases new with
      | none => exact absurd hs hne
      | some c => exact ⟨⟨hs, trivial⟩, rfl⟩
    | some b =>
      cases new with
      | none => exact ⟨⟨hs, trivial⟩, rfl⟩
      | some c => exact ⟨⟨hs, Function.update_self .., trivial⟩, Function.update_idem ..⟩

/-- The edits of distinct slots fit a table that agrees with the old schedule there, and make
it agree with the new one. -/
theorem chain_flatMap_ofSlot (old new : Links) (slots : List Int) (hnd : slots.Nodup)
    (t : SlotTable) (ht : ∀ s ∈ slots, t s = old.channel? s) :
    Chain t (slots.flatMap (ofSlot old new)) ∧
      onAll t (slots.flatMap (ofSlot old new)) =
        fun s => if s ∈ slots then new.channel? s else t s := by
  induction slots generalizing t with
  | nil => exact ⟨trivial, by simp [onAll]⟩
  | cons s rest ih =>
    rw [List.nodup_cons] at hnd
    obtain ⟨hfirst, hon⟩ := chain_ofChange t s (new.channel? s)
    have hedits : ofSlot old new s = ofChange s (t s) (new.channel? s) := by
      rw [ht s List.mem_cons_self, ofSlot]
    rw [List.flatMap_cons, hedits, onAll_append, hon]
    obtain ⟨hrest, honRest⟩ := ih hnd.2 (Function.update t s (new.channel? s)) fun u hu => by
      have hne : u ≠ s := fun e => hnd.1 (e ▸ hu)
      rw [Function.update_of_ne hne, ht u (List.mem_cons_of_mem _ hu)]
    refine ⟨chain_append hfirst (by rw [hon]; exact hrest), ?_⟩
    rw [honRest]
    funext u
    by_cases hu : u = s
    · subst hu
      simp [hnd.1]
    · simp [hu]

/-- What the edits of a slot make of any table. -/
theorem onAll_ofChange (t : SlotTable) (s : Int) (old new : Option Int) :
    onAll t (ofChange s old new) = if old = new then t else Function.update t s new := by
  unfold ofChange
  split
  · rfl
  · rename_i hne
    cases old with
    | none =>
      cases new with
      | none => exact absurd rfl hne
      | some c => rfl
    | some b =>
      cases new with
      | none => rfl
      | some c => exact Function.update_idem ..

theorem onAll_flatMap_ofSlot (old new : Links) (slots : List Int) (t : SlotTable) :
    onAll t (slots.flatMap (ofSlot old new)) = fun s =>
      if s ∈ slots ∧ old.channel? s ≠ new.channel? s then new.channel? s else t s := by
  induction slots generalizing t with
  | nil => simp [onAll]
  | cons s rest ih =>
    rw [List.flatMap_cons, onAll_append, ofSlot, onAll_ofChange, ih]
    funext u
    by_cases hs : old.channel? s = new.channel? s <;> by_cases hu : u = s
    · subst hu
      simp [hs]
    · simp [hs, hu]
    · subst hu
      simp [hs]
    · simp [hs, hu]

theorem between_eq_insertionSort : between = fun old new =>
    ((old.slots ++ new.slots.filter fun s => !old.contains s).insertionSort (· ≤ ·)).flatMap
      (ofSlot old new) := by
  funext old new
  exact congrArg (List.flatMap _) (List.mergeSort_eq_insertionSort _ _)

/-- The edits between two schedules go through every slot where the two differ. -/
theorem mem_slots_of_channel?_ne {old new : Links} {s : Int}
    (h : old.channel? s ≠ new.channel? s) :
    s ∈ old.slots ++ new.slots.filter fun u => !old.contains u := by
  rw [List.mem_append, List.mem_filter]
  by_contra hnot
  rw [not_or] at hnot
  have hold := (Links.channel?_eq_none_iff old s).2 hnot.1
  have hnew : s ∉ new.slots := fun hm => hnot.2 ⟨hm, by simp [Links.contains, hold]⟩
  exact h (hold.trans ((Links.channel?_eq_none_iff new s).2 hnew).symm)

/-- The edits between two schedules give any table the new links where the two differ, and leave
it alone where they do not. -/
theorem onAll_between (old new : Links) (t : SlotTable) :
    onAll t (between old new) = fun s =>
      if old.channel? s = new.channel? s then t s else new.channel? s := by
  unfold between
  rw [onAll_flatMap_ofSlot]
  funext s
  simp only [(List.mergeSort_perm _ fun a b => decide (a ≤ b)).mem_iff]
  by_cases hs : old.channel? s = new.channel? s
  · simp [hs]
  · simp [hs, mem_slots_of_channel?_ne hs]

theorem nodup_slots_between {old new : Links} (ho : old.Distinct) (hn : new.Distinct) :
    (old.slots ++ new.slots.filter fun s => !old.contains s).Nodup := by
  refine List.nodup_append.2 ⟨ho, hn.filter _, fun s hs u hu => ?_⟩
  rintro rfl
  rw [List.mem_filter, Bool.not_eq_true', ← Bool.not_eq_true, Links.contains_iff_mem_slots] at hu
  exact hu.2 hs

/-- The edits between two schedules fit the old one and lead to the new one. -/
theorem chain_between {old new : Links} (ho : old.Distinct) (hn : new.Distinct) :
    Chain old.channel? (between old new) ∧ onAll old.channel? (between old new) = new.channel? := by
  unfold between
  set slots := old.slots ++ new.slots.filter fun s => !old.contains s with hslots
  have hperm := List.mergeSort_perm slots fun a b => decide (a ≤ b)
  obtain ⟨hc, hon⟩ := chain_flatMap_ofSlot old new (slots.mergeSort fun a b => decide (a ≤ b))
    (hperm.nodup_iff.2 (nodup_slots_between ho hn)) old.channel? fun _ _ => rfl
  refine ⟨hc, hon.trans ?_⟩
  funext s
  split
  · rfl
  · rename_i hs
    -- a slot that no edit is about has no link before and none after
    rw [hperm.mem_iff, hslots, List.mem_append, not_or] at hs
    have hnew : s ∉ new.slots := fun hm => hs.2 (List.mem_filter.2 ⟨hm, by
      rw [Bool.not_eq_true', ← Bool.not_eq_true, Links.contains_iff_mem_slots]
      exact hs.1⟩)
    rw [(Links.channel?_eq_none_iff old s).2 hs.1, (Links.channel?_eq_none_iff new s).2 hnew]

/-- An edit between two schedules is about a slot whose channel differs. -/
theorem channel?_ne_of_mem_between {old new : Links} {e : LinkEdit} (h : e ∈ between old new) :
    old.channel? e.slot ≠ new.channel? e.slot := by
  unfold between at h
  obtain ⟨s, -, he⟩ := List.mem_flatMap.1 h
  unfold ofSlot ofChange at he
  split at he
  · cases he
  · rename_i hne
    cases ho : old.channel? s <;> cases hw : new.channel? s <;> grind [slot]

/-- The link that an edit is about belongs to one of the two schedules. -/
theorem entry_of_mem_between {old new : Links} {e : LinkEdit} (h : e ∈ between old new) :
    match e with
    | .delete s c => old.channel? s = some c
    | .add s c => new.channel? s = some c := by
  unfold between at h
  obtain ⟨s, -, he⟩ := List.mem_flatMap.1 h
  unfold ofSlot ofChange at he
  split at he
  · cases he
  · cases ho : old.channel? s <;> cases hw : new.channel? s <;> grind

/-- An edit between two schedules takes its slot away from the channel that it has in the old
one. -/
theorem on_ne_of_mem_between {old new : Links} {e : LinkEdit} (h : e ∈ between old new)
    (t : SlotTable) : e.on t e.slot ≠ old.channel? e.slot := by
  have hentry := entry_of_mem_between h
  have hchange := channel?_ne_of_mem_between h
  cases e with
  | delete s c =>
    simp only [on, slot, Function.update_self, hentry]
    exact (Option.some_ne_none c).symm
  | add s c =>
    simp only [on, slot, Function.update_self, ← hentry]
    exact hchange.symm

end LinkEdit
end TschLearning
