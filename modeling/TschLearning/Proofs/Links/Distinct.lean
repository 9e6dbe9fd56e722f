import TschLearning.Links
import Mathlib.Data.List.Nodup

/-! Link schedules with one link a slot. What their entries are is then settled by the
channels of their slots, up to the order of entry. -/

namespace TschLearning.Links

/-- No slot has two links. -/
def Distinct (l : Links) : Prop := l.slots.Nodup

/-- The same links, whatever their order. -/
def Same (a b : Links) : Prop := a.entries.Perm b.entries

theorem distinct_empty : empty.Distinct := List.nodup_nil

theorem contains_iff_mem_slots (l : Links) (s : Int) : l.contains s = true ↔ s ∈ l.slots := by
  unfold contains channel? slots
  induction l.entries with
  | nil => simp [channelIn?]
  | cons e rest ih =>
    unfold channelIn?
    by_cases he : e.1 = s
    · simp [he]
    · rw [if_neg he, ih, List.map_cons, List.mem_cons, or_iff_right (Ne.symm he)]

theorem channel?_eq_none_iff (l : Links) (s : Int) : l.channel? s = none ↔ s ∉ l.slots := by
  rw [← contains_iff_mem_slots, contains, Option.not_isSome_iff_eq_none]

/-- A slot's channel is that of its one entry. -/
theorem mem_entries_iff {l : Links} (h : l.Distinct) (s c : Int) :
    (s, c) ∈ l.entries ↔ l.channel? s = some c := by
  unfold Distinct slots at h
  unfold channel?
  generalize l.entries = es at h ⊢
  induction es with
  | nil => simp [channelIn?]
  | cons e rest ih =>
    rw [List.map_cons, List.nodup_cons] at h
    unfold channelIn?
    by_cases he : e.1 = s
    · subst he
      have hrest : (e.1, c) ∉ rest := fun hc => h.1 (List.mem_map.2 ⟨_, hc, rfl⟩)
      simp only [List.mem_cons, hrest, or_false, if_pos, Option.some.injEq]
      exact ⟨fun hc => (congrArg Prod.snd hc).symm, fun hc => by rw [← hc]⟩
    · rw [if_neg he, ← ih h.2, List.mem_cons, or_iff_right]
      exact fun hc => he (congrArg Prod.fst hc).symm

theorem Distinct.nodup_entries {l : Links} (h : l.Distinct) : l.entries.Nodup :=
  List.Nodup.of_map _ h

/-- Schedules with the same channels have the same links. -/
theorem same_of_channel?_eq {a b : Links} (ha : a.Distinct) (hb : b.Distinct)
    (h : a.channel? = b.channel?) : a.Same b := by
  refine (List.perm_ext_iff_of_nodup ha.nodup_entries hb.nodup_entries).2 fun ⟨s, c⟩ => ?_
  rw [mem_entries_iff ha, mem_entries_iff hb, h]

theorem Same.size_eq {a b : Links} (h : a.Same b) : a.size = b.size := h.length_eq

theorem distinct_insert {l : Links} (h : l.Distinct) (s c : Int) : (l.insert s c).Distinct := by
  unfold insert Distinct slots at *
  split
  · rename_i hs
    have hmap : (l.entries.map fun e => if e.1 = s then (s, c) else e).map (·.1)
        = l.entries.map (·.1) := by
      rw [List.map_map]
      refine List.map_congr_left fun e _ => ?_
      simp only [Function.comp_apply]
      split
      · rename_i he
        exact he.symm
      · rfl
    rw [hmap]
    exact h
  · rename_i hs
    rw [contains_iff_mem_slots] at hs
    rw [List.map_append, List.map_singleton, List.nodup_append]
    refine ⟨h, List.nodup_singleton _, fun x hx y hy => ?_⟩
    rintro rfl
    rw [List.mem_singleton.1 hy] at hx
    exact hs hx

theorem distinct_erase {l : Links} (h : l.Distinct) (s : Int) : (l.erase s).Distinct :=
  List.Nodup.sublist (List.filter_sublist.map _) h

theorem size_insert_of_not_contains {l : Links} {s : Int} (h : l.contains s = false) (c : Int) :
    (l.insert s c).size = l.size + 1 := by
  simp [insert, h, size]

theorem size_insert_of_contains {l : Links} {s : Int} (h : l.contains s = true) (c : Int) :
    (l.insert s c).size = l.size := by
  simp [insert, h, size]

theorem mem_entries_insert {l : Links} {s c : Int} {e : Int × Int}
    (h : e ∈ (l.insert s c).entries) : e = (s, c) ∨ e ∈ l.entries := by
  unfold insert at h
  split at h
  · obtain ⟨e', he', heq⟩ := List.mem_map.1 h
    split at heq
    · exact .inl heq.symm
    · exact .inr (heq ▸ he')
  · rcases List.mem_append.1 h with h | h
    · exact .inr h
    · exact .inl (List.mem_singleton.1 h)

theorem size_erase_le (l : Links) (s : Int) : (l.erase s).size ≤ l.size :=
  List.length_filter_le _ _

/-- Nothing is taken out of a slot without a link. -/
theorem erase_of_not_contains {l : Links} {s : Int} (h : l.contains s = false) :
    l.erase s = l := by
  rw [← Bool.not_eq_true, contains_iff_mem_slots] at h
  have hkeep : ∀ e ∈ l.entries, decide (e.1 ≠ s) = true :=
    fun e he => decide_eq_true fun heq => h (heq ▸ List.mem_map_of_mem he)
  unfold erase
  rw [List.filter_eq_self.2 hkeep]

/-! ### Schedules of configurations -/

theorem distinct_ofChannels (channels : List Int) : (ofChannels channels).Distinct := by
  have hslots : (ofChannels channels).slots = (List.range' 0 channels.length).map Nat.cast := by
    unfold ofChannels slots
    rw [List.map_map, ← List.zipIdx_map_snd, List.map_map]
    rfl
  unfold Distinct
  rw [hslots]
  exact List.Nodup.map (fun _ _ h => Int.ofNat.inj h) List.nodup_range'

theorem channel?_ofChannels (channels : List Int) (s : Int) :
    (ofChannels channels).channel? s = if 0 ≤ s then channels[s.toNat]? else none := by
  have hmem : ∀ c, (s, c) ∈ (ofChannels channels).entries ↔ 0 ≤ s ∧ channels[s.toNat]? = some c := by
    intro c
    unfold ofChannels
    rw [List.mem_map]
    constructor
    · rintro ⟨⟨x, i⟩, hx, he⟩
      cases he
      exact ⟨Int.natCast_nonneg i, List.mk_mem_zipIdx_iff_getElem?.1 hx⟩
    · rintro ⟨hs, hc⟩
      exact ⟨(c, s.toNat), List.mk_mem_zipIdx_iff_getElem?.2 hc, by rw [Int.toNat_of_nonneg hs]⟩
  refine Option.ext fun c => ?_
  rw [← mem_entries_iff (distinct_ofChannels channels), hmem]
  split
  · rename_i hs
    exact and_iff_right hs
  · rename_i hs
    simp [hs]

/-- Links of distinct slots are kept in their order. -/
theorem entries_ofPairs {pairs : List (Int × Int)} (h : (pairs.map (·.1)).Nodup) :
    (ofPairs pairs).entries = pairs := by
  have hfold : ∀ (rest done : List (Int × Int)), ((done ++ rest).map (·.1)).Nodup →
      (rest.foldl (fun l e => l.insert e.1 e.2) (⟨done⟩ : Links)).entries = done ++ rest := by
    intro rest
    induction rest with
    | nil => exact fun done _ => (List.append_nil done).symm
    | cons e rest ih =>
      intro done hd
      have hnew : (⟨done⟩ : Links).contains e.1 = false := by
        rw [← Bool.not_eq_true, contains_iff_mem_slots]
        intro hm
        rw [List.map_append, List.map_cons, List.nodup_append] at hd
        exact hd.2.2 e.1 hm e.1 List.mem_cons_self rfl
      rw [List.foldl_cons, insert, hnew, if_neg Bool.false_ne_true]
      have hmove : done ++ e :: rest = done ++ [e] ++ rest := by simp
      rw [hmove] at hd ⊢
      exact ih (done ++ [e]) hd
  exact hfold pairs [] h

end TschLearning.Links
