import TschLearning.Proofs.Exact
import TschLearning.Proofs.Learning.Applied
import Mathlib.Algebra.Order.BigOperators.Group.Finset
import Mathlib.Algebra.Order.Ring.Abs
import Mathlib.Algebra.Ring.GeomSum
import Mathlib.Tactic.Ring

/-! How far learned values can come. A value of a slot is made of a reward and of the values of
the slot behind it, discounted once. So it stays within a geometric sum with a term for every slot
from its own one on, whatever is configured and whatever comes of it. -/

namespace TschLearning

/-- The largest absolute value of a reward. -/
def Parameters.greatestReward (p : Parameters ℚ) : ℚ := max |p.successReward| |p.failureReward|

theorem Parameters.abs_reward_le (p : Parameters ℚ) (success : Bool) :
    |p.reward success| ≤ p.greatestReward := by
  cases success with
  | true => exact le_max_left _ _
  | false => exact le_max_right _ _

/-- What is between two numbers is no larger than they are. -/
theorem abs_blend_le {a x y b : ℚ} (h0 : 0 ≤ a) (h1 : a ≤ 1) (hx : |x| ≤ b) (hy : |y| ≤ b) :
    |(1 - a) * x + a * y| ≤ b :=
  calc |(1 - a) * x + a * y| ≤ |(1 - a) * x| + |a * y| := abs_add_le _ _
    _ = (1 - a) * |x| + a * |y| := by
      rw [abs_mul, abs_mul, abs_of_nonneg h0, abs_of_nonneg (sub_nonneg.2 h1)]
    _ ≤ (1 - a) * b + a * b :=
      add_le_add (mul_le_mul_of_nonneg_left hx (sub_nonneg.2 h1)) (mul_le_mul_of_nonneg_left hy h0)
    _ = b := by ring

namespace Lookahead

/-- What the rewards of so many slots in a row can come to. -/
def reach (p : Parameters ℚ) (slots : Nat) : ℚ :=
  p.greatestReward * ∑ k ∈ Finset.range slots, p.gamma ^ k

theorem reach_succ (p : Parameters ℚ) (n : Nat) :
    reach p (n + 1) = p.greatestReward + p.gamma * reach p n := by
  unfold reach
  rw [geom_sum_succ]
  ring

theorem reach_one (p : Parameters ℚ) : reach p 1 = p.greatestReward := by
  simp [reach]

/-- Every value is within what the rewards of the slots from its own one on can come to. -/
def Bounded (p : Parameters ℚ) (table : ValueTable ℚ) : Prop :=
  ∀ t < table.slots, ∀ c < table.channels, |table.cell t c| ≤ reach p (table.slots - t)

variable {p : Parameters ℚ} {table : ValueTable ℚ}

theorem bounded_empty (p : Parameters ℚ) (hg : 0 ≤ p.gamma) (slots channels : Nat) :
    Bounded p (Grid.empty slots channels 0) := by
  intro t _ c _
  rw [Grid.cell_empty, abs_zero]
  exact mul_nonneg ((abs_nonneg _).trans (le_max_left _ _))
    (Finset.sum_nonneg fun k _ => pow_nonneg hg k)

/-- The value that a slot learns is within its bound if the old one is, and the values behind. -/
theorem Bounded.abs_learned_le (h : Bounded p table) (ha : Arith.isProbability p.alpha = true)
    (hg : Arith.isProbability p.gamma = true) {t c : Nat} (ht : t < table.slots)
    (hc : c < table.channels) (success : Bool) :
    |if t + 1 = table.slots then (1 - p.alpha) * table.cell t c + p.alpha * p.reward success
      else (1 - p.alpha) * table.cell t c +
        p.alpha * (p.reward success + p.gamma * table.largestIn (t + 1))| ≤
      reach p (table.slots - t) := by
  obtain ⟨ha0, ha1⟩ := Arith.isProbability_iff.1 ha
  obtain ⟨hg0, -⟩ := Arith.isProbability_iff.1 hg
  have hold := h t ht c hc
  have hreward := p.abs_reward_le success
  split
  · rename_i hlast
    have hslots : table.slots - t = 1 := by omega
    rw [hslots, reach_one] at hold ⊢
    exact abs_blend_le ha0 ha1 hold hreward
  · rename_i hlast
    have hslots : table.slots - t = table.slots - (t + 1) + 1 := by omega
    obtain ⟨⟨d, hd, hlargest⟩, -⟩ :=
      ValueTable.isGreatest_largestIn (t := table) (Nat.zero_lt_of_lt hc) (t + 1)
    have hnext : |p.gamma * table.largestIn (t + 1)| ≤
        p.gamma * reach p (table.slots - (t + 1)) := by
      rw [abs_mul, abs_of_nonneg hg0, ← hlargest]
      exact mul_le_mul_of_nonneg_left (h (t + 1) (by omega) d hd) hg0
    refine abs_blend_le ha0 ha1 hold ?_
    rw [hslots, reach_succ]
    exact (abs_add_le _ _).trans (add_le_add hreward hnext)

theorem Bounded.snapshot (h : Bounded p table) (ha : Arith.isProbability p.alpha = true)
    (hg : Arith.isProbability p.gamma = true) (won : Nat → Nat → Bool)
    (configuration : List Datum) : Bounded p (Lookahead.snapshot p won configuration table) := by
  intro t ht c hc
  rw [slots_snapshot] at ht ⊢
  rw [channels_snapshot] at hc
  rw [cell_snapshot p won configuration ht hc]
  split
  · exact h.abs_learned_le ha hg ht hc _
  · exact h t ht c hc

/-! ### Pass after pass -/

section Passes

variable {σ : Type} [Journal σ]

/-- A slotframe to learn from: its outcomes, and the channels that were used in it. -/
structure Epoch where
  outcomes : OutcomeTracker
  configuration : List Datum

/-- The slotframe is one of a table of the given size. -/
structure Epoch.Fits (slots channels : Nat) (e : Epoch) : Prop where
  slots_eq : e.outcomes.slots = slots
  channels_eq : e.outcomes.channels = channels
  configured : IsConfiguration slots channels e.configuration

/-- Applies the rule once for every slotframe. -/
def applyEach {α : Type} [Arith α] (p : Parameters α) :
    List Epoch → Action (ValueTable α × σ) Unit
  | [] => pure ()
  | e :: rest => do
    apply p e.outcomes e.configuration
    applyEach p rest

theorem Bounded.ends_applyEach (hjournal : ∀ (n : Note) (s : σ), Journal.obstacle? n s = none)
    (ha : Arith.isProbability p.alpha = true) (hg : Arith.isProbability p.gamma = true)
    {slots channels : Nat} {epochs : List Epoch} (he : ∀ e ∈ epochs, e.Fits slots channels)
    (hs : table.slots = slots) (hc : table.channels = channels) (h : Bounded p table) (s : σ) :
    Action.Ends (applyEach p epochs) (table, s) fun _ u =>
      u.1.slots = slots ∧ u.1.channels = channels ∧ Bounded p u.1 := by
  induction epochs generalizing table s with
  | nil => exact ⟨hs, hc, h⟩
  | cons e rest ih =>
    obtain ⟨hslots, hchannels, hconfigured⟩ := he e List.mem_cons_self
    have htracker : Journal.Discreet (σ := σ) fun _ => e.outcomes := ⟨hjournal, fun _ _ => rfl⟩
    have hpass := ends_apply (p := p) (s := s) htracker (hslots.trans hs.symm)
      (hchannels.trans hc.symm) (by rwa [hs, hc])
    unfold applyEach
    rw [Action.ends_bind]
    refine hpass.mono ?_
    rintro _ ⟨table', t⟩ ⟨htable, -⟩
    change table' = _ at htable
    subst htable
    exact ih (fun e' he' => he e' (List.mem_cons_of_mem e he')) ((slots_snapshot ..).trans hs)
      ((channels_snapshot ..).trans hc) (h.snapshot ha hg _ _) t

/-- Whatever the rule is applied to, time after time and beginning with a table of zeros: the
values of a slot stay within the greatest reward times `1 + gamma + gamma ^ 2 + ...`, with a term
for every slot from this one to the last; so those of the last slot never exceed the greatest
reward. -/
theorem values_bounded (p : Parameters ℚ)
    (hjournal : ∀ (n : Note) (s : σ), Journal.obstacle? n s = none)
    (ha : Arith.isProbability p.alpha = true) (hg : Arith.isProbability p.gamma = true)
    (slots channels : Nat) (epochs : List Epoch) (he : ∀ e ∈ epochs, e.Fits slots channels)
    (s : σ) :
    ∃ table s', applyEach p epochs (Grid.empty slots channels 0, s) = .ok () (table, s') ∧
      table.slots = slots ∧ table.channels = channels ∧
      (∀ t < slots, ∀ c < channels, |table.cell t c| ≤
        max |p.successReward| |p.failureReward| *
          ∑ k ∈ Finset.range (slots - t), p.gamma ^ k) ∧
      ∀ t, t + 1 = slots → ∀ c < channels,
        |table.cell t c| ≤ max |p.successReward| |p.failureReward| := by
  have hempty := bounded_empty p (Arith.isProbability_iff.1 hg).1 slots channels
  obtain ⟨_, ⟨table, s'⟩, hrun, hslots, hchannels, hbounded⟩ :=
    Action.ends_iff.1 (hempty.ends_applyEach hjournal ha hg he rfl rfl s)
  refine ⟨table, s', hrun, hslots, hchannels, fun t ht c hc => ?_, fun t ht c hc => ?_⟩
  · rw [← hslots] at ht ⊢
    exact hbounded t ht c (hchannels ▸ hc)
  · have hone : table.slots - t = 1 := by
      rw [hslots]
      omega
    show |table.cell t c| ≤ p.greatestReward
    rw [← reach_one, ← hone]
    exact hbounded t (by omega) c (hchannels ▸ hc)

/-- Two passes over two slots without a discount, with one success and one failure each. -/
theorem values_bounded_undiscounted :
    let p : Parameters ℚ :=
      { Parameters.level (1 / 2) 0 with gamma := 1, successReward := 3, failureReward := -1 }
    let outcomes : OutcomeTracker := (Grid.empty 2 2 false).set 0 1 true
    ∃ table s', applyEach p [⟨outcomes, Datum.ofInts [1, 0]⟩, ⟨outcomes, Datum.ofInts [1, 1]⟩]
        (Grid.empty 2 2 0, Whims.start []) = .ok () (table, s') ∧
      |table.cell 0 1| ≤ 6 ∧ |table.cell 1 0| ≤ 3 := by
  intro p outcomes
  have hfits : ∀ e ∈ [Epoch.mk outcomes (Datum.ofInts [1, 0]), ⟨outcomes, Datum.ofInts [1, 1]⟩],
      e.Fits 2 2 := by
    intro e he
    rcases List.mem_pair.1 he with rfl | rfl
    · exact ⟨rfl, rfl, [1, 0], rfl, rfl, by decide⟩
    · exact ⟨rfl, rfl, [1, 1], rfl, rfl, by decide⟩
  obtain ⟨table, s', hrun, -, -, hvalue, hlast⟩ :=
    values_bounded p (fun _ (_ : Whims) => rfl) (by decide +kernel) (by decide +kernel) 2 2 _ hfits
      (Whims.start [])
  refine ⟨table, s', hrun, (hvalue 0 (by decide) 1 (by decide)).trans ?_,
    (hlast 1 rfl 0 (by decide)).trans ?_⟩
  · decide +kernel
  · decide +kernel

end Passes
end Lookahead
end TschLearning
