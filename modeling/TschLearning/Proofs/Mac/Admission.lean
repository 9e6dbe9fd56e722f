import TschLearning.Proofs.Mac.Edits

/-! What a simulated MAC layer makes of any edit, whether or not the edit fits its table. The
dimensions of the slotframe are looked at first, and an edit beyond them fails with a fault that
is no refusal. Within them only a new link can be refused, for want of room. -/

namespace TschLearning

/-- The check of an index fails unless it is at or above zero and below the bound, and what it
fails with is no refusal. -/
theorem checkIndexBelow_eq_error {bound : Datum} {i : Int} (h : ¬bound.Bounds i)
    (owner name : String) :
    ∃ why, checkIndexBelow owner name bound (.int i) = .error why ∧ why.isRefusal = false := by
  by_cases h0 : 0 ≤ i
  · have hbelow : ∀ n, bound.number? = some n → (Number.int i).lt n = false := by
      intro n hn
      rw [← Bool.not_eq_true]
      exact fun hlt => h ⟨h0, n, hn, hlt⟩
    cases hb : bound.number? with
    | none =>
      refine ⟨.incomparable, ?_, rfl⟩
      cases bound with
      | int b => cases hb
      | _ => simp [checkIndexBelow, Datum.comparable, hb, Int.not_lt.2 h0, bind, Except.bind]
    | some n =>
      refine ⟨.indexOutOfRange owner name i bound, ?_, rfl⟩
      have hlt := hbelow n hb
      cases bound with
      | int b =>
        cases hb
        rw [Number.lt_int, decide_eq_false_iff_not] at hlt
        simp [checkIndexBelow, checkIndex, hlt]
      | _ =>
        simp only [checkIndexBelow, Datum.comparable, hb, Int.not_lt.2 h0, if_false, bind,
          Except.bind, hlt, Bool.false_eq_true]
        rfl
  · refine ⟨.indexOutOfRange owner name i bound, ?_, rfl⟩
    cases bound with
    | int b => simp [checkIndexBelow, checkIndex, h0]
    | _ => simp [checkIndexBelow, Int.not_le.1 h0]

/-- An index that passes its check is an integer within the bound. -/
theorem checkIndexBelow_eq_ok {owner name : String} {bound d : Datum} {n : Nat}
    (h : checkIndexBelow owner name bound d = .ok n) : d = .int n ∧ bound.Bounds n := by
  cases d with
  | int i =>
    by_cases hb : bound.Bounds i
    · rw [checkIndexBelow_of_bounds hb] at h
      obtain rfl := Except.ok.inj h
      rw [Int.toNat_of_nonneg hb.1]
      exact ⟨rfl, hb⟩
    · obtain ⟨why, herror, -⟩ := checkIndexBelow_eq_error hb owner name
      rw [herror] at h
      cases h
  | _ => cases bound <;> cases h

/-- An index that fails its check against an integer bound is out of range. -/
theorem checkIndexBelow_int_eq_error {bound i : Int} {owner name : String} {why : Fault}
    (h : checkIndexBelow owner name (.int bound) (.int i) = .error why) :
    ¬(0 ≤ i ∧ i < bound) ∧ why = .indexOutOfRange owner name i (.int bound) := by
  rw [checkIndexBelow_int, checkIndex] at h
  split at h
  · cases h
  · rename_i hout
    cases h
    exact ⟨hout, rfl⟩

namespace Mac

variable {κ : Type} {m : Mac κ} {e : LinkEdit} {why : Fault}

/-- The checks of an edit, with nothing made of it. -/
def admission (m : Mac κ) : LinkEdit → Except Fault Unit
  | .delete s _ => do
    let _ ← m.checkSlot (.int s)
  | .add s c => do
    let _ ← m.checkSlot (.int s)
    let _ ← m.checkChannel (.int c)

/-- The MAC layer admits an edit: the slot is one of its slotframe, and so is the channel of a
new link. -/
def Admits (m : Mac κ) : LinkEdit → Prop
  | .delete s _ => m.slots.Bounds s
  | .add s c => m.Covers s c

theorem Covers.admits (h : m.Covers e.slot e.channel) : m.Admits e := by
  cases e with
  | delete s c => exact h.1
  | add s c => exact h

theorem admission_eq_ok (h : m.Admits e) : m.admission e = .ok () := by
  cases e with
  | delete s c =>
    have hslots : m.slots.Bounds s := h
    simp only [admission, checkSlot, checkIndexBelow_of_bounds hslots, bind, Except.bind]
    rfl
  | add s c =>
    have hslots : m.slots.Bounds s := h.1
    have hchannels : m.channels.Bounds c := h.2
    simp only [admission, checkSlot, checkChannel, checkIndexBelow_of_bounds hslots,
      checkIndexBelow_of_bounds hchannels, bind, Except.bind]
    rfl

/-- An edit beyond the slotframe fails its checks, which is no refusal. -/
theorem admission_eq_error (h : ¬m.Admits e) :
    ∃ why, m.admission e = .error why ∧ why.isRefusal = false := by
  cases e with
  | delete s c =>
    obtain ⟨why, he, hr⟩ := checkIndexBelow_eq_error h (possessive ownerLabel) "slot"
    refine ⟨why, ?_, hr⟩
    simp only [admission, checkSlot, he, bind, Except.bind]
  | add s c =>
    by_cases hs : m.slots.Bounds s
    · have hc : ¬m.channels.Bounds c := fun hc => h ⟨hs, hc⟩
      obtain ⟨why, he, hr⟩ := checkIndexBelow_eq_error hc (possessive ownerLabel) "channel"
      refine ⟨why, ?_, hr⟩
      simp only [admission, checkSlot, checkChannel, checkIndexBelow_of_bounds hs, he, bind,
        Except.bind]
    · obtain ⟨why, he, hr⟩ := checkIndexBelow_eq_error hs (possessive ownerLabel) "slot"
      refine ⟨why, ?_, hr⟩
      simp only [admission, checkSlot, he, bind, Except.bind]

theorem not_admits (h : m.admission e = .error why) : ¬m.Admits e := by
  intro hadmits
  rw [admission_eq_ok hadmits] at h
  cases h

/-- An edit that is not admitted to a slotframe of integer dimensions has its slot out of range,
or else adds a link whose channel is. -/
theorem outOfRange_of_admission {slots channels : Int} (hs : m.slots = .int slots)
    (hc : m.channels = .int channels) (h : m.admission e = .error why) :
    ¬(0 ≤ e.slot ∧ e.slot < slots) ∧
        why = .indexOutOfRange (possessive ownerLabel) "slot" e.slot (.int slots) ∨
      e = .add e.slot e.channel ∧ ¬(0 ≤ e.channel ∧ e.channel < channels) ∧
        why = .indexOutOfRange (possessive ownerLabel) "channel" e.channel (.int channels) := by
  simp only [admission, checkSlot, checkChannel, hs, hc] at h
  cases e with
  | delete s c =>
    obtain hslot | ⟨_, -, hdone⟩ := bind_eq_error.1 h
    · exact .inl (checkIndexBelow_int_eq_error hslot)
    · cases hdone
  | add s c =>
    obtain hslot | ⟨_, -, h⟩ := bind_eq_error.1 h
    · exact .inl (checkIndexBelow_int_eq_error hslot)
    · obtain hchannel | ⟨_, -, hdone⟩ := bind_eq_error.1 h
      · exact .inr ⟨rfl, checkIndexBelow_int_eq_error hchannel⟩
      · cases hdone

/-! ### Operations of edits that may not fit -/

/-- A link can only be deleted from a slot of the slotframe. -/
theorem deleteLink_eq_error {s c : Int} (h : m.admission (.delete s c) = .error why) :
    m.deleteLink (.int s) = .error why := by
  obtain hslot | ⟨_, -, hdone⟩ := bind_eq_error.1 h
  · exact bind_eq_error.2 (.inl hslot)
  · cases hdone

/-- A link can only be put into a slot and on a channel of the slotframe. -/
theorem addLink_eq_error {s c : Int} (h : m.admission (.add s c) = .error why) :
    m.addLink (.int s) (.int c) = .error why := by
  obtain hslot | ⟨n, hslot, h⟩ := bind_eq_error.1 h
  · exact bind_eq_error.2 (.inl hslot)
  · obtain hchannel | ⟨_, -, hdone⟩ := bind_eq_error.1 h
    · exact bind_eq_error.2 (.inr ⟨n, hslot, bind_eq_error.2 (.inl hchannel)⟩)
    · cases hdone

/-- A link replaces another one in its slot at any time. -/
theorem addLink_of_contains {s c : Int} (h : m.Covers s c) (hs : m.links.contains s = true) :
    m.addLink (.int s) (.int c) = .ok (m.withLinks (m.links.insert s c)) := by
  have hslot : ((s.toNat : Nat) : Int) = s := Int.toNat_of_nonneg h.1.1
  have hchannel : ((c.toNat : Nat) : Int) = c := Int.toNat_of_nonneg h.2.1
  simp only [addLink, checkSlot, checkChannel, checkIndexBelow_of_bounds h.1,
    checkIndexBelow_of_bounds h.2, bind, Except.bind, hslot, hchannel, hs]
  rfl

/-! ### Room -/

/-- So many links can be put into the link table, one after the other. -/
def HasRoomFor (m : Mac κ) (n : Nat) : Prop := ∀ k < n, isFull m.capacity k = .ok false

/-- Room for a table is room for the number of its links. -/
theorem hasRoom_iff {l : Links} (hl : l.Distinct) :
    m.HasRoom l.channel? ↔ m.HasRoomFor l.size := by
  constructor
  · exact fun h => h l hl rfl
  · intro h l' hl' ht n hn
    rw [(Links.same_of_channel?_eq hl' hl ht).size_eq] at hn
    exact h n hn

/-- An integer capacity is the greatest number of links. -/
theorem hasRoomFor_int {k : Int} (h : m.capacity = some (.int k)) {n : Nat} (hn : n ≠ 0) :
    m.HasRoomFor n ↔ (n : Int) ≤ k := by
  unfold HasRoomFor
  simp only [h, isFull_int, Except.ok.injEq, decide_eq_false_iff_not, Int.not_le]
  constructor
  · intro hall
    have hlast := hall (n - 1) (by omega)
    omega
  · intro hle j hj
    omega

/-- Room for a table is room for it with a slot cleared. -/
theorem HasRoom.clear {t : SlotTable} (h : m.HasRoom t) (s : Int) :
    m.HasRoom (Function.update t s none) := by
  cases hs : t s with
  | none => rwa [← hs, Function.update_eq_self]
  | some c => exact h.delete hs

/-- Room for a table is room for it with another link in place of one of its own. -/
theorem HasRoom.replace {t : SlotTable} (h : m.HasRoom t) {s b : Int} (hs : t s = some b)
    (c : Int) : m.HasRoom (Function.update t s (some c)) := by
  intro l hl ht n hn
  have hback : (l.insert s b).channel? = t := by
    rw [show (l.insert s b).channel? = Function.update l.channel? s (some b) from
      LinkEdit.channel?_apply l (.add s b), ht, Function.update_idem, ← hs,
      Function.update_eq_self]
  refine h (l.insert s b) (Links.distinct_insert hl s b) hback n ?_
  have hcontains : l.contains s = true := by
    rw [Links.contains, ht, Function.update_self]
    rfl
  rwa [Links.size_insert_of_contains hcontains]

end Mac
end TschLearning
