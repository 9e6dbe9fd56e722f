import TschLearning.Proofs.Links.Edits

/-! The tables that a link schedule goes through on its way to another one. The edits come slot by
slot, so behind those of a slot the table has the new links up to there and the old ones from
there on; it is largest behind the slots that get a link. -/

namespace TschLearning.LinkEdit

variable {P : SlotTable → Prop} {t : SlotTable}

/-- The tables in front of the edits, between them and behind them have a property. -/
def Along (P : SlotTable → Prop) : SlotTable → List LinkEdit → Prop
  | t, [] => P t
  | t, e :: rest => P t ∧ Along P (e.on t) rest

theorem Along.first {edits : List LinkEdit} (h : Along P t edits) : P t := by
  cases edits with
  | nil => exact h
  | cons e rest => exact h.1

theorem along_append {a b : List LinkEdit} :
    Along P t (a ++ b) ↔ Along P t a ∧ Along P (onAll t a) b := by
  induction a generalizing t with
  | nil => exact ⟨fun h => ⟨h.first, h⟩, And.right⟩
  | cons e a ih =>
    show P t ∧ Along P (e.on t) (a ++ b) ↔ (P t ∧ Along P (e.on t) a) ∧ _
    rw [ih, and_assoc]
    rfl

section Clearing

variable (hclear : ∀ t s, P t → P (Function.update t s none))
include hclear

/-- A property that tables keep when a slot is cleared need only be looked at behind the edits of
a slot, and only if the slot gets a link. -/
theorem along_ofChange (s : Int) (old new : Option Int) :
    Along P t (ofChange s old new) ↔
      P t ∧ (new.isSome = true → P (onAll t (ofChange s old new))) := by
  rw [onAll_ofChange]
  unfold ofChange
  split
  · simp only [Along]
    exact ⟨fun h => ⟨h, fun _ => h⟩, And.left⟩
  · cases old with
    | none => cases new <;> simp [Along, on]
    | some b =>
      have hdeleted := hclear t s
      cases new with
      | none => simpa [Along, on] using hdeleted
      | some c => simpa [Along, on] using fun h _ => hdeleted h

theorem of_onAll_ofChange {s : Int} {old new : Option Int} (h : P t)
    (hnew : new.isSome = true → P (onAll t (ofChange s old new))) :
    P (onAll t (ofChange s old new)) := by
  cases new with
  | some c => exact hnew rfl
  | none =>
    rw [onAll_ofChange]
    split
    · exact h
    · exact hclear t s h

theorem along_flatMap_ofSlot (old new : Links) {slots : List Int}
    (hs : slots.Pairwise (· < ·)) (t : SlotTable) :
    Along P t (slots.flatMap (ofSlot old new)) ↔
      P t ∧ ∀ u ∈ slots, u ∈ new.slots →
        P (onAll t ((slots.filter (· ≤ u)).flatMap (ofSlot old new))) := by
  induction slots generalizing t with
  | nil => simp [Along]
  | cons s rest ih =>
    rw [List.pairwise_cons] at hs
    have hsome : (new.channel? s).isSome = true ↔ s ∈ new.slots :=
      Links.contains_iff_mem_slots new s
    have hbefore : rest.filter (· ≤ s) = [] := by
      simpa [List.filter_eq_nil_iff] using hs.1
    have hfirst : (s :: rest).filter (· ≤ s) = [s] := by
      rw [List.filter_cons, if_pos (by simp), hbefore]
    have hlater : ∀ u ∈ rest, onAll t (((s :: rest).filter (· ≤ u)).flatMap (ofSlot old new))
        = onAll (onAll t (ofSlot old new s)) ((rest.filter (· ≤ u)).flatMap (ofSlot old new)) := by
      intro u hu
      rw [List.filter_cons, if_pos (by simpa using (hs.1 u hu).le), List.flatMap_cons, onAll_append]
    rw [List.flatMap_cons, along_append, ih hs.2, List.forall_mem_cons, hfirst,
      List.flatMap_singleton, ofSlot, along_ofChange hclear, hsome]
    have hrest : (∀ u ∈ rest, u ∈ new.slots →
        P (onAll t (((s :: rest).filter (· ≤ u)).flatMap (ofSlot old new)))) ↔
        ∀ u ∈ rest, u ∈ new.slots → P (onAll (onAll t (ofSlot old new s))
          ((rest.filter (· ≤ u)).flatMap (ofSlot old new))) :=
      forall₂_congr fun u hu => by rw [hlater u hu]
    rw [hrest]
    constructor
    · rintro ⟨⟨ht, hnew⟩, -, hall⟩
      exact ⟨ht, hnew, hall⟩
    · rintro ⟨ht, hnew, hall⟩
      exact ⟨⟨ht, hnew⟩, of_onAll_ofChange hclear ht fun h => hnew (hsome.1 h), hall⟩

/-- The table once the edits of the slots up to a given one are made. -/
def midway (old new : Links) (u : Int) (t : SlotTable) : SlotTable := fun s =>
  if s ≤ u ∧ old.channel? s ≠ new.channel? s then new.channel? s else t s

/-- The edits between two schedules keep a property if the tables do behind every slot that is to
have a link. -/
theorem along_between {old new : Links} (ho : old.Distinct) (hn : new.Distinct) (t : SlotTable) :
    Along P t (between old new) ↔ P t ∧ ∀ u ∈ new.slots, P (midway old new u t) := by
  unfold between
  set slots := old.slots ++ new.slots.filter fun s => !old.contains s
  set sorted := slots.mergeSort fun a b => decide (a ≤ b)
  have hperm : sorted.Perm slots := List.mergeSort_perm _ _
  have hnodup : sorted.Nodup := hperm.nodup_iff.2 (nodup_slots_between ho hn)
  have hle : sorted.Pairwise (· ≤ ·) := List.pairwise_mergeSort' (· ≤ ·) slots
  have hlt : sorted.Pairwise (· < ·) := (hle.and hnodup).imp fun h => lt_of_le_of_ne h.1 h.2
  have hmidway : ∀ u, onAll t ((sorted.filter (· ≤ u)).flatMap (ofSlot old new))
      = midway old new u t := by
    intro u
    rw [onAll_flatMap_ofSlot]
    funext s
    by_cases hs : old.channel? s = new.channel? s
    · simp [midway, hs]
    · have hmem : s ∈ sorted := hperm.mem_iff.2 (mem_slots_of_channel?_ne hs)
      simp [midway, hs, hmem]
  have hslots : ∀ u ∈ new.slots, u ∈ sorted := by
    intro u hu
    rw [hperm.mem_iff, List.mem_append, List.mem_filter, Bool.not_eq_true', ← Bool.not_eq_true,
      Links.contains_iff_mem_slots]
    exact (Classical.em (u ∈ old.slots)).imp_right fun hold => ⟨hu, hold⟩
  rw [along_flatMap_ofSlot hclear old new hlt]
  simp only [hmidway]
  exact and_congr_right fun _ =>
    ⟨fun h u hu => h u (hslots u hu) hu, fun h u _ hu => h u hu⟩

end Clearing

/-! ### On the way from the links that were there -/

/-- The new links up to a slot and the old ones behind it. -/
def through (old new : Links) (u : Int) : Links :=
  ⟨new.entries.filter (fun e => e.1 ≤ u) ++ old.entries.filter fun e => u < e.1⟩

theorem distinct_through {old new : Links} (ho : old.Distinct) (hn : new.Distinct) (u : Int) :
    (through old new u).Distinct := by
  unfold Links.Distinct Links.slots through
  rw [List.map_append]
  refine List.nodup_append.2 ⟨List.Nodup.sublist (List.filter_sublist.map _) hn,
    List.Nodup.sublist (List.filter_sublist.map _) ho, ?_⟩
  intro a ha b hb
  obtain ⟨e, he, rfl⟩ := List.mem_map.1 ha
  obtain ⟨e', he', rfl⟩ := List.mem_map.1 hb
  have hle : e.1 ≤ u := by simpa using (List.mem_filter.1 he).2
  have hlt : u < e'.1 := by simpa using (List.mem_filter.1 he').2
  exact (hle.trans_lt hlt).ne

theorem channel?_through {old new : Links} (ho : old.Distinct) (hn : new.Distinct) (u : Int) :
    (through old new u).channel? = midway old new u old.channel? := by
  funext s
  refine Option.ext fun c => ?_
  have hentries : (s, c) ∈ (through old new u).entries ↔
      (new.channel? s = some c ∧ s ≤ u) ∨ (old.channel? s = some c ∧ u < s) := by
    rw [through, List.mem_append, List.mem_filter, List.mem_filter, Links.mem_entries_iff hn,
      Links.mem_entries_iff ho, decide_eq_true_iff, decide_eq_true_iff]
  rw [← Links.mem_entries_iff (distinct_through ho hn u), hentries]
  unfold midway
  by_cases hs : s ≤ u
  · by_cases he : old.channel? s = new.channel? s <;> simp [hs, he]
  · simp [hs, Int.not_le.1 hs]

theorem size_through (old new : Links) (u : Int) :
    (through old new u).size = new.slots.countP (· ≤ u) + old.slots.countP (u < ·) := by
  simp only [through, Links.size, Links.slots, List.length_append, List.countP_map,
    ← List.countP_eq_length_filter]
  rfl

end TschLearning.LinkEdit
