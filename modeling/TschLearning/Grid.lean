/-! Tables of a fixed size with a cell for every channel of every slot. A cell
beyond the ends reads as blank and cannot be written. -/

namespace TschLearning

/-- A table of cells indexed by slot and channel. -/
structure Grid (β : Type) where
  slots : Nat
  channels : Nat
  -- what the cells hold at first
  blank : β
  cells : Array β
  size_cells : cells.size = slots * channels

namespace Grid

variable {β : Type}

def empty (slots channels : Nat) (blank : β) : Grid β where
  slots
  channels
  blank
  cells := .replicate (slots * channels) blank
  size_cells := Array.size_replicate

def cell (g : Grid β) (slot channel : Nat) : β :=
  if slot < g.slots ∧ channel < g.channels then g.cells.getD (slot * g.channels + channel) g.blank
  else g.blank

def set (g : Grid β) (slot channel : Nat) (v : β) : Grid β :=
  if slot < g.slots ∧ channel < g.channels then
    { g with
      cells := g.cells.setIfInBounds (slot * g.channels + channel) v
      size_cells := by rw [Array.size_setIfInBounds, g.size_cells] }
  else g

def clear (g : Grid β) : Grid β := empty g.slots g.channels g.blank

def row (g : Grid β) (slot : Nat) : List β := (List.range g.channels).map (g.cell slot)

def rows (g : Grid β) : List (List β) := (List.range g.slots).map g.row

@[simp] theorem slots_set (g : Grid β) (s c : Nat) (v : β) : (g.set s c v).slots = g.slots := by
  unfold set; split <;> rfl

@[simp] theorem channels_set (g : Grid β) (s c : Nat) (v : β) :
    (g.set s c v).channels = g.channels := by
  unfold set; split <;> rfl

@[simp] theorem blank_set (g : Grid β) (s c : Nat) (v : β) : (g.set s c v).blank = g.blank := by
  unfold set; split <;> rfl

theorem offset_lt {g : Grid β} {s c : Nat} (hs : s < g.slots) (hc : c < g.channels) :
    s * g.channels + c < g.cells.size := by
  rw [g.size_cells]
  calc s * g.channels + c < s * g.channels + g.channels := by omega
    _ = (s + 1) * g.channels := by rw [Nat.succ_mul]
    _ ≤ g.slots * g.channels := Nat.mul_le_mul_right _ hs

theorem offset_inj {n s c s' c' : Nat} (hc : c < n) (hc' : c' < n)
    (h : s * n + c = s' * n + c') : s = s' ∧ c = c' := by
  have hn : 0 < n := by omega
  have hs : s = s' := by
    have := congrArg (· / n) h
    simpa [Nat.add_comm _ c, Nat.add_comm _ c', Nat.add_mul_div_right _ _ hn, Nat.div_eq_of_lt hc,
      Nat.div_eq_of_lt hc'] using this
  subst hs
  exact ⟨rfl, by omega⟩

theorem cell_set_self {g : Grid β} {s c : Nat} (hs : s < g.slots) (hc : c < g.channels) (v : β) :
    (g.set s c v).cell s c = v := by
  have h := offset_lt hs hc
  simp [set, cell, hs, hc, Array.getD, h]

theorem cell_set_of_ne {g : Grid β} {s c s' c' : Nat} (h : s ≠ s' ∨ c ≠ c') (v : β) :
    (g.set s c v).cell s' c' = g.cell s' c' := by
  unfold set
  split
  · rename_i hb
    simp only [cell]
    split
    · rename_i hb'
      have hne : s * g.channels + c ≠ s' * g.channels + c' := fun e => by
        obtain ⟨h1, h2⟩ := offset_inj hb.2 hb'.2 e
        exact h.elim (· h1) (· h2)
      simp only [Array.getD, Array.size_setIfInBounds]
      split
      · exact Array.getElem_setIfInBounds_ne _ hne
      · rfl
    · rfl
  · rfl

end Grid
end TschLearning
