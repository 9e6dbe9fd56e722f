import TschLearning.Grid

/-! Tables seen cell by cell: a table is settled by its cells, and a rule for the cells makes a
table. -/

namespace TschLearning.Grid

variable {β : Type}

theorem slot_of_offset {n s c : Nat} (hc : c < n) : (s * n + c) / n = s := by
  rw [Nat.add_comm, Nat.add_mul_div_right _ _ (by omega), Nat.div_eq_of_lt hc, Nat.zero_add]

theorem channel_of_offset {n s c : Nat} (hc : c < n) : (s * n + c) % n = c := by
  rw [Nat.add_comm, Nat.add_mul_mod_self_right, Nat.mod_eq_of_lt hc]

theorem getElem?_cells {g : Grid β} {s c : Nat} (hs : s < g.slots) (hc : c < g.channels) :
    g.cells[s * g.channels + c]? = some (g.cell s c) := by
  simp [cell, hs, hc, Array.getD, offset_lt hs hc]

/-- Every position of the array is that of a cell. -/
theorem offset_of_lt {slots channels k : Nat} (h : k < slots * channels) :
    k / channels < slots ∧ k % channels < channels := by
  have hpos : 0 < channels := Nat.pos_of_ne_zero fun e => by simp [e] at h
  exact ⟨Nat.div_lt_of_lt_mul (by rwa [Nat.mul_comm]), Nat.mod_lt k hpos⟩

/-- Tables of the same size with the same cells are the same. -/
theorem ext_cell {g h : Grid β} (hs : g.slots = h.slots) (hc : g.channels = h.channels)
    (hb : g.blank = h.blank)
    (hcell : ∀ s < g.slots, ∀ c < g.channels, g.cell s c = h.cell s c) : g = h := by
  have hsize : g.cells.size = h.cells.size := by rw [g.size_cells, h.size_cells, hs, hc]
  have hcells : g.cells = h.cells := by
    refine Array.ext_getElem? fun k => ?_
    by_cases hk : k < g.slots * g.channels
    · obtain ⟨hdiv, hmod⟩ := offset_of_lt hk
      have hk' : k / g.channels * g.channels + k % g.channels = k :=
        Nat.div_add_mod' k g.channels
      have hg := getElem?_cells hdiv hmod
      have hh := getElem?_cells (g := h) (hs ▸ hdiv) (hc ▸ hmod)
      rw [hk'] at hg
      rw [← hc, hk'] at hh
      rw [hg, hh, hcell _ hdiv _ hmod]
    · rw [Array.getElem?_eq_none (by rw [g.size_cells]; omega),
        Array.getElem?_eq_none (by rw [← hsize, g.size_cells]; omega)]
  cases g
  cases h
  cases hs
  cases hc
  cases hb
  cases hcells
  rfl

/-- The table whose cells are what a rule makes of those of another one. -/
def mapCells (g : Grid β) (f : Nat → Nat → β → β) : Grid β :=
  { g with
    cells := g.cells.mapIdx fun k v => f (k / g.channels) (k % g.channels) v
    size_cells := by rw [Array.size_mapIdx, g.size_cells] }

@[simp] theorem slots_mapCells (g : Grid β) (f : Nat → Nat → β → β) :
    (g.mapCells f).slots = g.slots := rfl

@[simp] theorem channels_mapCells (g : Grid β) (f : Nat → Nat → β → β) :
    (g.mapCells f).channels = g.channels := rfl

@[simp] theorem blank_mapCells (g : Grid β) (f : Nat → Nat → β → β) :
    (g.mapCells f).blank = g.blank := rfl

theorem cell_mapCells {g : Grid β} {f : Nat → Nat → β → β} {s c : Nat} (hs : s < g.slots)
    (hc : c < g.channels) : (g.mapCells f).cell s c = f s c (g.cell s c) := by
  have hmap := getElem?_cells (g := g.mapCells f) hs hc
  simp only [mapCells, Array.getElem?_mapIdx, getElem?_cells hs hc, slot_of_offset hc,
    channel_of_offset hc, Option.map_some, Option.some.injEq] at hmap
  exact hmap.symm

/-- What the cells of a table hold is what stands in its array. -/
theorem exists_cell_eq_iff {g : Grid β} {v : β} :
    (∃ s < g.slots, ∃ c < g.channels, g.cell s c = v) ↔ v ∈ g.cells := by
  rw [Array.mem_iff_getElem?]
  constructor
  · rintro ⟨s, hs, c, hc, rfl⟩
    exact ⟨_, getElem?_cells hs hc⟩
  · rintro ⟨k, hk⟩
    obtain ⟨hlt, -⟩ := Array.getElem?_eq_some_iff.1 hk
    rw [g.size_cells] at hlt
    obtain ⟨hs, hc⟩ := offset_of_lt hlt
    refine ⟨k / g.channels, hs, k % g.channels, hc, ?_⟩
    rw [← Nat.div_add_mod' k g.channels, getElem?_cells hs hc] at hk
    exact Option.some.inj hk

/-- Tables of one size with related cells. -/
structure Cellwise {γ : Type} (R : β → γ → Prop) (g : Grid β) (h : Grid γ) : Prop where
  slots_eq : g.slots = h.slots
  channels_eq : g.channels = h.channels
  cell : ∀ s < g.slots, ∀ c < g.channels, R (g.cell s c) (h.cell s c)

theorem Cellwise.mono {γ : Type} {R S : β → γ → Prop} {g : Grid β} {h : Grid γ}
    (hgh : Cellwise R g h) (hRS : ∀ v w, R v w → S v w) : Cellwise S g h :=
  ⟨hgh.slots_eq, hgh.channels_eq, fun s hs c hc => hRS _ _ (hgh.cell s hs c hc)⟩

theorem Cellwise.set {γ : Type} {R : β → γ → Prop} {g : Grid β} {h : Grid γ}
    (hgh : Cellwise R g h) (s c : Nat) {v : β} {w : γ} (hvw : R v w) :
    Cellwise R (g.set s c v) (h.set s c w) := by
  refine ⟨by simp [hgh.slots_eq], by simp [hgh.channels_eq], fun s' hs' c' hc' => ?_⟩
  rw [slots_set] at hs'
  rw [channels_set] at hc'
  by_cases heq : s = s' ∧ c = c'
  · obtain ⟨rfl, rfl⟩ := heq
    rw [cell_set_self hs' hc', cell_set_self (hgh.slots_eq ▸ hs') (hgh.channels_eq ▸ hc')]
    exact hvw
  · have hne : s ≠ s' ∨ c ≠ c' := by omega
    rw [cell_set_of_ne hne, cell_set_of_ne hne]
    exact hgh.cell s' hs' c' hc'

theorem cell_of_not_lt {g : Grid β} {s c : Nat} (h : ¬(s < g.slots ∧ c < g.channels)) :
    g.cell s c = g.blank := by
  simp [cell, h]

@[simp] theorem cell_empty (slots channels : Nat) (b : β) (s c : Nat) :
    (empty slots channels b).cell s c = b := by
  by_cases h : s < slots ∧ c < channels
  · have hcell := getElem?_cells (g := empty slots channels b) h.1 h.2
    simp only [empty, Array.getElem?_replicate] at hcell
    split at hcell
    · exact (Option.some.inj hcell).symm
    · cases hcell
  · exact cell_of_not_lt h

theorem row_congr {g h : Grid β} {s : Nat} (hc : g.channels = h.channels)
    (hcell : ∀ c < g.channels, g.cell s c = h.cell s c) : g.row s = h.row s := by
  unfold row
  rw [← hc]
  exact List.map_congr_left fun c hm => hcell c (List.mem_range.1 hm)

end TschLearning.Grid
