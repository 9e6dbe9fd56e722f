import TschLearning.Mac
import TschLearning.Proofs.Checks
import TschLearning.Proofs.Links.Edits

/-! When a simulated MAC layer takes an edit. A link can be deleted at any time; one that is
added needs room, and the table in front of an edit that was made has room for taking it back. -/

namespace TschLearning

/-- An index at or above zero and below a bound that stands for a number. -/
def Datum.Bounds (bound : Datum) (i : Int) : Prop :=
  0 ≤ i ∧ ∃ n, bound.number? = some n ∧ (Number.int i).lt n = true

@[simp] theorem Datum.bounds_int (b i : Int) : Bounds (.int b) i ↔ 0 ≤ i ∧ i < b := by
  unfold Bounds
  refine and_congr_right fun _ => ⟨?_, fun h => ⟨.int b, rfl, ?_⟩⟩
  · rintro ⟨_, hn, h⟩
    cases hn
    rwa [Number.lt_int, decide_eq_true_iff] at h
  · rwa [Number.lt_int, decide_eq_true_iff]

theorem checkIndexBelow_of_bounds {bound : Datum} {i : Int} (h : bound.Bounds i)
    (owner name : String) : checkIndexBelow owner name bound (.int i) = .ok i.toNat := by
  obtain ⟨h0, n, hn, hlt⟩ := h
  cases bound with
  | int b =>
    have hib := (Datum.bounds_int b i).1 ⟨h0, n, hn, hlt⟩
    rw [checkIndexBelow_int, checkIndex_int_of_lt _ _ hib.1 hib.2]
  | bool b =>
    simp only [checkIndexBelow, Datum.comparable, hn, if_neg (Int.not_lt.2 h0)]
    simp only [bind, Except.bind, hlt, if_pos]
    rfl
  | float x =>
    simp only [checkIndexBelow, Datum.comparable, hn, if_neg (Int.not_lt.2 h0)]
    simp only [bind, Except.bind, hlt, if_pos]
    rfl
  | _ => cases hn

namespace Mac

variable {κ : Type}

/-- A link within the slotframe. -/
def Covers (m : Mac κ) (slot channel : Int) : Prop := m.slots.Bounds slot ∧ m.channels.Bounds channel

/-- The capacity of the link table, if it has one, is a number. -/
def IsSized (m : Mac κ) : Prop := ∀ d, m.capacity = some d → d.number?.isSome = true

/-- A table of links can be filled without the MAC layer being full before its last link. -/
def HasRoom (m : Mac κ) (t : SlotTable) : Prop :=
  ∀ l : Links, l.Distinct → l.channel? = t → ∀ n < l.size, isFull m.capacity n = .ok false

theorem hasRoom_of_capacity_eq_none {m : Mac κ} (h : m.capacity = none) (t : SlotTable) :
    m.HasRoom t := by
  intro l _ _ n _
  rw [h]
  rfl

theorem hasRoom_empty (m : Mac κ) : m.HasRoom Links.empty.channel? := by
  intro l hl ht n hn
  have hsize := (Links.same_of_channel?_eq hl Links.distinct_empty ht).size_eq
  exact absurd hn (by rw [hsize]; exact Nat.not_lt_zero n)

theorem HasRoom.delete {m : Mac κ} {t : SlotTable} {s c : Int} (h : m.HasRoom t)
    (hs : t s = some c) : m.HasRoom ((LinkEdit.delete s c).on t) := by
  intro l hl ht n hn
  have hback : (l.insert s c).channel? = t := by
    rw [← LinkEdit.on_undo (e := .delete s c) hs, ← ht]
    exact LinkEdit.channel?_apply l (.add s c)
  refine h (l.insert s c) (Links.distinct_insert hl s c) hback n ?_
  have hfree : l.contains s = false := by
    rw [Links.contains, ht]
    simp [LinkEdit.on]
  rw [Links.size_insert_of_not_contains hfree]
  omega

theorem HasRoom.add {m : Mac κ} {l : Links} (h : m.HasRoom l.channel?) (hl : l.Distinct) {s : Int}
    (hs : l.channel? s = none) (c : Int) (hfull : isFull m.capacity l.size = .ok false) :
    m.HasRoom ((LinkEdit.add s c).on l.channel?) := by
  intro l' hl' ht n hn
  have hfree : l.contains s = false := by rw [Links.contains, hs]; rfl
  have hsame : l'.Same (l.insert s c) := by
    refine Links.same_of_channel?_eq hl' (Links.distinct_insert hl s c) ?_
    rw [ht]
    exact (LinkEdit.channel?_apply l (.add s c)).symm
  rw [hsame.size_eq, Links.size_insert_of_not_contains hfree] at hn
  rcases Nat.lt_succ_iff_lt_or_eq.1 hn with hn | rfl
  · exact h l hl rfl n hn
  · exact hfull

/-- A full table is not full before a link that there is room for. -/
theorem HasRoom.isFull_size {m : Mac κ} {l : Links} (hl : l.Distinct) {s c : Int}
    (hs : l.channel? s = none) (h : m.HasRoom ((LinkEdit.add s c).on l.channel?)) :
    isFull m.capacity l.size = .ok false := by
  have hfree : l.contains s = false := by rw [Links.contains, hs]; rfl
  refine h (l.insert s c) (Links.distinct_insert hl s c)
    (LinkEdit.channel?_apply l (.add s c)) l.size ?_
  rw [Links.size_insert_of_not_contains hfree]
  omega

theorem isFull_eq_ok {m : Mac κ} (h : m.IsSized) (n : Nat) : ∃ b, isFull m.capacity n = .ok b := by
  unfold isFull
  cases hc : m.capacity with
  | none => exact ⟨false, rfl⟩
  | some d =>
    obtain ⟨x, hx⟩ := Option.isSome_iff_exists.1 (h d hc)
    exact ⟨x.le (.int n), by simp only [Datum.comparable, hx]; rfl⟩

/-! ### Edits of a link table -/

def withLinks (m : Mac κ) (l : Links) : Mac κ := { m with links := l }

@[simp] theorem links_withLinks (m : Mac κ) (l : Links) : (m.withLinks l).links = l := rfl

@[simp] theorem withLinks_withLinks (m : Mac κ) (l l' : Links) :
    (m.withLinks l).withLinks l' = m.withLinks l' := rfl

@[simp] theorem withLinks_links (m : Mac κ) : m.withLinks m.links = m := rfl

theorem deleteLink_eq_ok {m : Mac κ} {s : Int} (hs : m.slots.Bounds s) :
    ∃ remark, m.deleteLink (.int s) = .ok (remark, m.withLinks (m.links.erase s)) := by
  have hnat : ((s.toNat : Nat) : Int) = s := Int.toNat_of_nonneg hs.1
  refine ⟨if m.links.contains s then none else some (.noLinkToDelete s.toNat), ?_⟩
  simp only [deleteLink, checkSlot, checkIndexBelow_of_bounds hs, bind, Except.bind, hnat]
  rfl

theorem addLink_of_not_full {m : Mac κ} {s c : Int} (h : m.Covers s c)
    (hs : m.links.channel? s = none) (hfull : isFull m.capacity m.links.size = .ok false) :
    m.addLink (.int s) (.int c) = .ok (m.withLinks (m.links.insert s c)) := by
  have hslot : ((s.toNat : Nat) : Int) = s := Int.toNat_of_nonneg h.1.1
  have hchannel : ((c.toNat : Nat) : Int) = c := Int.toNat_of_nonneg h.2.1
  simp only [addLink, checkSlot, checkChannel, checkIndexBelow_of_bounds h.1,
    checkIndexBelow_of_bounds h.2, bind, Except.bind, hslot, hchannel, Links.contains, hs, hfull]
  rfl

/-- The refusal of a link for which a MAC layer has no room. -/
def full (m : Mac κ) : Fault := .linkTableFull m.label (m.capacity.getD .null)

theorem addLink_of_full {m : Mac κ} {s c : Int} (h : m.Covers s c)
    (hs : m.links.channel? s = none) (hfull : isFull m.capacity m.links.size = .ok true) :
    m.addLink (.int s) (.int c) = .error m.full := by
  have hslot : ((s.toNat : Nat) : Int) = s := Int.toNat_of_nonneg h.1.1
  simp only [addLink, checkSlot, checkChannel, checkIndexBelow_of_bounds h.1,
    checkIndexBelow_of_bounds h.2, bind, Except.bind, hslot, Links.contains, hs, hfull]
  rfl

theorem deleteLink_eq {m m' : Mac κ} {slot : Datum} {remark : Option Remark}
    (h : m.deleteLink slot = .ok (remark, m')) :
    ∃ s : Nat, m' = m.withLinks (m.links.erase s) ∧
      (remark.isSome = true → m.links.contains s = false) := by
  obtain ⟨s, -, h⟩ := bind_eq_ok.1 h
  cases h
  refine ⟨s, rfl, fun hremark => ?_⟩
  rw [← Bool.not_eq_true]
  intro hcontains
  simp [hcontains] at hremark

theorem addLink_eq {m m' : Mac κ} {slot channel : Datum}
    (h : m.addLink slot channel = .ok m') :
    ∃ s c, m.checkSlot slot = .ok s ∧ m.checkChannel channel = .ok c ∧
      (m.links.contains s = true ∨ isFull m.capacity m.links.size = .ok false) ∧
      m' = m.withLinks (m.links.insert s c) := by
  obtain ⟨s, hs, h⟩ := bind_eq_ok.1 h
  obtain ⟨c, hc, h⟩ := bind_eq_ok.1 h
  refine ⟨s, c, hs, hc, ?_⟩
  split at h
  · obtain ⟨full, hfull, h⟩ := bind_eq_ok.1 h
    cases full <;> cases h
    exact ⟨.inr hfull, rfl⟩
  · rename_i hcontains
    cases h
    exact ⟨.inl (by simpa using hcontains), rfl⟩

end Mac
end TschLearning
