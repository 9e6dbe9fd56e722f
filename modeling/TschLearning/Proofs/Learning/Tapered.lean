import TschLearning.Proofs.Exact
import TschLearning.Scheduler.SlotSelection
import Mathlib.Algebra.Order.Field.Basic

/-! The annealed exploration rate in exact arithmetic: at most the cap, the cap itself for as long
as the quotient does not undercut it, and never more than it was at an earlier slot. -/

namespace TschLearning

namespace EpsilonSchedule

def exactly (s : EpsilonSchedule ℚ) (asn : Nat) : ℚ :=
  if asn = 0 then s.cap else min s.cap (s.scale / asn)

variable {s : EpsilonSchedule ℚ}

theorem rate_eq_exactly (s : EpsilonSchedule ℚ) (asn : Nat) :
    s.rate asn = .ok (s.exactly asn) := by
  unfold exactly
  cases asn with
  | zero => rfl
  | succ n =>
    have hrate : s.rate (n + 1)
        = .ok (if s.scale / ((n + 1 : Nat) : ℚ) < s.cap then s.scale / ((n + 1 : Nat) : ℚ)
          else s.cap) := by
      simp only [rate, Annealed.started, Annealed.dividedBy, Arith.dividedBy?, Annealed.below,
        Arith.lt, decide_eq_true_iff, bind, Except.bind]
      rfl
    rw [hrate, if_neg (Nat.succ_ne_zero n)]
    split_ifs with hbelow
    · rw [min_eq_right hbelow.le]
    · rw [min_eq_left (not_lt.1 hbelow)]

theorem exactly_le_cap (s : EpsilonSchedule ℚ) (asn : Nat) : s.exactly asn ≤ s.cap := by
  unfold exactly
  split
  · exact le_rfl
  · exact min_le_left _ _

theorem exactly_nonneg (hscale : 0 ≤ s.scale) (hcap : 0 ≤ s.cap) (asn : Nat) :
    0 ≤ s.exactly asn := by
  unfold exactly
  split
  · exact hcap
  · exact le_min hcap (div_nonneg hscale (Nat.cast_nonneg asn))

/-- The rate stays at the cap for as long as the quotient is not below it. -/
theorem exactly_eq_cap_iff (asn : Nat) :
    s.exactly asn = s.cap ↔ asn = 0 ∨ asn * s.cap ≤ s.scale := by
  unfold exactly
  by_cases hzero : asn = 0
  · simp [hzero]
  · have hpos : (0 : ℚ) < asn := Nat.cast_pos.2 (Nat.pos_of_ne_zero hzero)
    rw [if_neg hzero, or_iff_right hzero, min_eq_left_iff, le_div_iff₀ hpos, mul_comm]

theorem exactly_anti (hscale : 0 ≤ s.scale) {m n : Nat} (h : m ≤ n) :
    s.exactly n ≤ s.exactly m := by
  by_cases hm : m = 0
  · rw [hm]
    exact s.exactly_le_cap n
  · have hpos : (0 : ℚ) < m := Nat.cast_pos.2 (Nat.pos_of_ne_zero hm)
    have hn : n ≠ 0 := fun hn => hm (Nat.le_zero.1 (hn ▸ h))
    unfold exactly
    rw [if_neg hm, if_neg hn]
    exact min_le_min_left _ (div_le_div_of_nonneg_left hscale hpos (Nat.cast_le.2 h))

end EpsilonSchedule

namespace Parameters

def schedule {α : Type} (p : Parameters α) : EpsilonSchedule α := ⟨p.epsilonScale, p.epsilonCap⟩

/-- The cap is a probability and the scale not below zero, as is checked of parameters. -/
structure Tapers (p : Parameters ℚ) : Prop where
  cap : Arith.isProbability p.epsilonCap = true
  scale : 0 ≤ p.epsilonScale

end Parameters

theorem SlotSelection.annealed_eq_exactly {μ : Type} {a : SlotSelection μ ℚ} (h : a.params.Tapers)
    (asn : Nat) : a.annealed asn = .ok (a.params.schedule.exactly asn) := by
  obtain ⟨hzero, hone⟩ := Arith.isProbability_iff.1 h.cap
  have hprobability : Arith.isProbability (a.params.schedule.exactly asn) = true :=
    Arith.isProbability_iff.2 ⟨EpsilonSchedule.exactly_nonneg h.scale hzero asn,
      (a.params.schedule.exactly_le_cap asn).trans hone⟩
  have hrate : (EpsilonSchedule.mk a.params.epsilonScale a.params.epsilonCap).rate asn
      = .ok (a.params.schedule.exactly asn) := EpsilonSchedule.rate_eq_exactly a.params.schedule asn
  simp only [annealed, hrate, hprobability, bind, Except.bind]
  rfl

end TschLearning
