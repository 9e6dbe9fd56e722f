import TschLearning.Parameters
import TschLearning.Proofs.Grid
import TschLearning.ValueTable
import Mathlib.Algebra.Order.Field.Rat
import Mathlib.Order.Bounds.Basic

/-! Learning in exact arithmetic. Over the rational numbers nothing is rounded and every number
is defined, so the largest of some values is one of them and is at least as large as each. -/

namespace TschLearning

/-- Rational numbers. They are shown as the nearest binary64 numbers. -/
instance : Arith ℚ where
  lt a b := decide (a < b)
  le a b := decide (a ≤ b)
  largest x xs := xs.foldl max x
  dividedBy? x n := some (x / n)
  shown x := .float (Binary64.intQuotient x.num x.den)

namespace Arith

theorem isProbability_iff {x : ℚ} : isProbability x = true ↔ 0 ≤ x ∧ x ≤ 1 := by
  simp [isProbability, le]

theorem isGreatest_largest (x : ℚ) (xs : List ℚ) :
    IsGreatest {y | y ∈ x :: xs} (largest x xs) := by
  show IsGreatest {y | y ∈ x :: xs} (xs.foldl max x)
  induction xs generalizing x with
  | nil => simp [isGreatest_singleton]
  | cons y ys ih =>
    obtain ⟨hmem, hle⟩ := ih (max x y)
    constructor
    · rcases List.mem_cons.1 hmem with heq | hys
      · rcases max_choice x y with hmax | hmax
        · exact List.mem_cons.2 (.inl (heq.trans hmax))
        · exact List.mem_cons_of_mem x (List.mem_cons.2 (.inl (heq.trans hmax)))
      · exact List.mem_cons_of_mem x (List.mem_cons_of_mem y hys)
    · intro z hz
      have hfirst : max x y ≤ ys.foldl max (max x y) := hle List.mem_cons_self
      rcases List.mem_cons.1 hz with rfl | hz
      · exact (le_max_left _ _).trans hfirst
      · rcases List.mem_cons.1 hz with rfl | hz
        · exact (le_max_right _ _).trans hfirst
        · exact hle (List.mem_cons_of_mem _ hz)

end Arith

namespace ValueTable

theorem isGreatest_largestIn {t : ValueTable ℚ} (hc : 0 < t.channels) (slot : Nat) :
    IsGreatest {v | ∃ c < t.channels, t.cell slot c = v} (t.largestIn slot) := by
  have hrow : {v | ∃ c < t.channels, t.cell slot c = v} = {v | v ∈ t.row slot} := by
    simp [Grid.row]
  have hlen : (t.row slot).length = t.channels := by simp [Grid.row]
  rw [hrow]
  unfold largestIn
  cases h : t.row slot with
  | nil => simp [h] at hlen; omega
  | cons x xs => exact Arith.isGreatest_largest x xs

theorem isGreatest_largest {t : ValueTable ℚ} (hs : 0 < t.slots) (hc : 0 < t.channels) :
    IsGreatest {v | ∃ s < t.slots, ∃ c < t.channels, t.cell s c = v} t.largest := by
  have hcells : {v | ∃ s < t.slots, ∃ c < t.channels, t.cell s c = v} =
      {v | v ∈ t.cells.toList} := by
    ext v
    exact Grid.exists_cell_eq_iff.trans Array.mem_toList_iff.symm
  have hlen : t.cells.toList.length = t.slots * t.channels := by
    rw [Array.length_toList, t.size_cells]
  rw [hcells]
  unfold largest
  cases h : t.cells.toList with
  | nil =>
    rw [h, List.length_nil] at hlen
    exact absurd hlen.symm (Nat.mul_pos hs hc).ne'
  | cons x xs => exact Arith.isGreatest_largest x xs

end ValueTable
end TschLearning
