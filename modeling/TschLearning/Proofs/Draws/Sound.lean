import TschLearning.Draws.Permuted
import TschLearning.Proofs.Action.Twin

/-! Draws from generators. Two generators in one state yield the same draws, and integers are
within their bound as long as the generator is a sound one. -/

namespace TschLearning

/-- Integers are always drawn below their bound. -/
def Generator.Sound (ρ : Type) {α : Type} [Generator ρ α] : Prop :=
  ∀ (bound : Nat) (g : ρ), 0 < bound →
    ∃ i g', Generator.below bound g = (.ok i, g') ∧ 0 ≤ i ∧ i < bound

namespace Draws

open TschLearning.Action

variable {ρ σ α : Type} [Generator ρ α] {get : σ → ρ} {put : ρ → σ → σ} {s t : σ}

theorem twin_uniform (h : get s = get t) :
    Twin (ofGenerator get put).uniform (ofGenerator get put).uniform s t
      fun u v s' t' => u = v ∧ ∃ g, s' = put g s ∧ t' = put g t := by
  refine twin_iff.2 ⟨_, _, _, _, rfl, rfl, ?_⟩
  rw [h]
  exact ⟨rfl, _, rfl, rfl⟩

theorem twin_below (hsound : Generator.Sound ρ) (h : get s = get t) {bound : Nat}
    (hpos : 0 < bound) :
    Twin ((ofGenerator get put).below bound) ((ofGenerator get put).below bound) s t
      fun i j s' t' => (i = j ∧ 0 ≤ i ∧ i < bound) ∧ ∃ g, s' = put g s ∧ t' = put g t := by
  obtain ⟨i, g, hdraw, hi⟩ := hsound bound (get s) hpos
  have hleft : ((ofGenerator get put).below bound) s = .ok i (put g s) := by
    simp only [ofGenerator, alone, Generator.drawBelow, hdraw]
  have hright : ((ofGenerator get put).below bound) t = .ok i (put g t) := by
    simp only [ofGenerator, alone, Generator.drawBelow, ← h, hdraw]
  exact twin_iff.2 ⟨_, _, _, _, hleft, hright, ⟨rfl, hi⟩, g, rfl, rfl⟩

end Draws

/-! ### The permuted congruential generator -/

namespace Permuted

/-- The upper half of a product is below one of its factors. -/
theorem upper_lt {w range bound : Nat} (hw : w < range) (hbound : 0 < bound) :
    w * bound / range < bound := by
  refine Nat.div_lt_of_lt_mul ?_
  exact Nat.mul_lt_mul_of_pos_right hw hbound

theorem boundedFrom_lt {bound : Nat} (hbound : 0 < bound) (tries : Nat) (g : Permuted) :
    (boundedFrom bound tries g).1 < bound := by
  induction tries generalizing g with
  | zero => exact hbound
  | succ tries ih =>
    simp only [boundedFrom]
    split
    · exact ih _
    · exact upper_lt (UInt32.toNat_lt _) hbound

theorem wideFrom_lt {bound : Nat} (hbound : 0 < bound) (tries : Nat) (g : Permuted) :
    (wideFrom bound tries g).1 < bound := by
  induction tries generalizing g with
  | zero => exact hbound
  | succ tries ih =>
    simp only [wideFrom]
    split
    · exact ih _
    · exact upper_lt (UInt64.toNat_lt _) hbound

theorem below_lt {bound : Nat} (hbound : 0 < bound) (g : Permuted) : (g.below bound).1 < bound := by
  unfold below
  split
  · exact hbound
  · split
    · exact boundedFrom_lt hbound 1000 g
    · exact wideFrom_lt hbound 1000 g

theorem sound : Generator.Sound Permuted := by
  intro bound g hpos
  have hlt := below_lt hpos g
  exact ⟨(g.below bound).1, (g.below bound).2, rfl, Int.natCast_nonneg _, Int.ofNat_lt.2 hlt⟩

end Permuted
end TschLearning
