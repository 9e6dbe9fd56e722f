import TschLearning.Parameters
import TschLearning.Scheduler.SlotSelection
import TschLearning.Proofs.Binary64.Order
import TschLearning.Proofs.Checks

namespace TschLearning

open Binary64

/-! A number as it was handed over, and the binary64 number that it is converted to. -/

theorem Datum.number?_eq_of_toFloat {d : Datum} {n : Number} {x : Float} (hn : d.number? = some n)
    (hx : d.toFloat = .ok x) : n.toFloat? = some x := by
  cases d with
  | bool b =>
    cases hn
    simp only [Datum.toFloat, Datum.number?] at hx
    split at hx <;> simp_all [Number.toFloat?]
  | int i =>
    cases hn
    simp only [Datum.toFloat, Datum.number?] at hx
    split at hx <;> simp_all [Number.toFloat?]
  | float y =>
    cases hn
    cases hx
    rfl
  | _ => cases hn

theorem Number.toFloat?_notBelow {n : Number} {x : Float} (hx : n.toFloat? = some x)
    (h : n.lt (.int 0) = false) : NotBelow x.toModel.unpack := by
  cases n with
  | float y =>
    cases hx
    exact notBelow_of_not_lt h
  | int i =>
    rw [Number.lt_int] at h
    obtain ⟨m, rfl⟩ := Int.eq_ofNat_of_zero_le (not_lt.1 (of_decide_eq_false h))
    simp only [Number.toFloat?, ofInt?] at hx
    split at hx
    · cases hx
      exact (unsigned_floatOfNat m).notBelow
    · cases hx

theorem Number.toFloat?_probability {n : Number} {x : Float} (hx : n.toFloat? = some x)
    (h : n.isProbability = true) : 0.0 ≤ x ∧ x ≤ 1.0 := by
  obtain ⟨h0, h1⟩ := Bool.and_eq_true_iff.1 h
  cases n with
  | float y =>
    cases hx
    exact ⟨zero_le_of_le h0, le_one_of_le h1⟩
  | int i =>
    rw [Number.le_int, decide_eq_true_iff] at h0 h1
    simp only [Number.toFloat?, ofInt?] at hx
    split at hx
    · cases hx
      obtain rfl | rfl : i = 0 ∨ i = 1 := by omega
      · decide +kernel
      · decide +kernel
    · cases hx

theorem Datum.comparable_eq_ok {d : Datum} {n : Number} (h : d.comparable = .ok n) :
    d.number? = some n := by
  unfold Datum.comparable at h
  dsimp only at h
  split at h
  · rename_i hn
    cases h
    exact hn
  · cases h

namespace Parameters

theorem checkProbability_eq_ok {name : String} {d : Datum} {u : Unit}
    (h : checkProbability name d = .ok u) :
    ∃ n, d.number? = some n ∧ n.isProbability = true := by
  obtain ⟨n, hn, h⟩ := bind_eq_ok.1 h
  refine ⟨n, Datum.comparable_eq_ok hn, ?_⟩
  cases hp : n.isProbability with
  | true => rfl
  | false =>
    rw [hp] at h
    cases h

theorem checkNotNegative_eq_ok {name : String} {d : Datum} {u : Unit}
    (h : checkNotNegative name d = .ok u) :
    ∃ n, d.number? = some n ∧ n.lt (.int 0) = false := by
  obtain ⟨n, hn, h⟩ := bind_eq_ok.1 h
  refine ⟨n, Datum.comparable_eq_ok hn, ?_⟩
  cases hp : n.lt (.int 0) with
  | false => rfl
  | true =>
    rw [hp] at h
    cases h

theorem check_eq_ok {v : ParameterInput} {u : Unit} (h : check v = .ok u) :
    (∃ n, (v .epsilonCap).number? = some n ∧ n.isProbability = true) ∧
      ∃ n, (v .epsilonScale).number? = some n ∧ n.lt (.int 0) = false := by
  obtain ⟨_, hprobabilities, h⟩ := bind_eq_ok.1 h
  obtain ⟨_, hamounts, -⟩ := bind_eq_ok.1 h
  exact ⟨checkProbability_eq_ok (forIn_eq_ok hprobabilities .epsilonCap (by decide)),
    checkNotNegative_eq_ok (forIn_eq_ok hamounts .epsilonScale (by decide))⟩

/-- An exploration rate that can be annealed: the cap is a probability, and the scale is not below
zero. -/
structure Anneals (p : Parameters Float) : Prop where
  zero_le_cap : 0.0 ≤ p.epsilonCap
  cap_le_one : p.epsilonCap ≤ 1.0
  scale : NotBelow p.epsilonScale.toModel.unpack

/-- Parameters that were checked can be annealed. -/
theorem anneals_of_ofInput {v : ParameterInput} {p : Parameters Float} (h : ofInput v = .ok p) :
    p.Anneals := by
  simp only [ofInput, bind_eq_ok] at h
  obtain ⟨_, hcheck, _, -, _, -, _, -, _, -, _, -, _, -, _, -, cap, hcap, scale, hscale, _, -, _, -,
    hp⟩ := h
  cases hp
  obtain ⟨⟨m, hm, hprobability⟩, n, hn, hnot⟩ := check_eq_ok hcheck
  obtain ⟨hzero, hone⟩ :=
    Number.toFloat?_probability (Datum.number?_eq_of_toFloat hm hcap) hprobability
  exact ⟨hzero, hone, Number.toFloat?_notBelow (Datum.number?_eq_of_toFloat hn hscale) hnot⟩

end Parameters

namespace SlotSelection

theorem two_pow_le_integerLimit : 2 ^ 1023 ≤ integerLimit := by
  decide +kernel

theorem isProbability_eq_true {x : Float} (hzero : 0.0 ≤ x) (hone : x ≤ 1.0) :
    Arith.isProbability x = true :=
  Bool.and_eq_true_iff.2 ⟨decide_eq_true hzero, decide_eq_true hone⟩

theorem rate_eq_ok {p : Parameters Float} (hp : p.Anneals) {asn : Nat} (hasn : asn < integerLimit) :
    ∃ rate, (EpsilonSchedule.mk p.epsilonScale p.epsilonCap).rate asn = .ok rate ∧
      Arith.isProbability rate = true := by
  have hcap := isProbability_eq_true hp.zero_le_cap hp.cap_le_one
  cases asn with
  | zero => exact ⟨_, rfl, hcap⟩
  | succ n =>
    have hdivided : Arith.dividedBy? p.epsilonScale (n + 1)
        = some (p.epsilonScale / Float.ofNat (n + 1)) := by
      show (ofInt? ((n + 1 : Nat) : Int)).map _ = _
      rw [ofInt?, if_pos (by rwa [Int.natAbs_natCast])]
      rfl
    have hrate : (EpsilonSchedule.mk p.epsilonScale p.epsilonCap).rate (n + 1)
        = .ok (if Arith.lt (p.epsilonScale / Float.ofNat (n + 1)) p.epsilonCap then
            p.epsilonScale / Float.ofNat (n + 1) else p.epsilonCap) := by
      simp only [EpsilonSchedule.rate, Annealed.started, Annealed.dividedBy, hdivided,
        Annealed.below, bind, Except.bind]
      rfl
    refine ⟨_, hrate, ?_⟩
    split
    · rename_i hlt
      have hlt := of_decide_eq_true hlt
      exact isProbability_eq_true
        (zero_le (notBelow_div_ofNat hp.scale _) (ne_notANumber_of_lt hlt))
        (le_one_of_lt hlt hp.cap_le_one)
    · exact hcap

/-- As long as the slot number can be divided by, the rate is a probability. -/
theorem annealed_eq_ok {μ : Type} {a : SlotSelection μ Float} (ha : a.params.Anneals) {asn : Nat}
    (hasn : asn < integerLimit) : ∃ rate, a.annealed asn = .ok rate := by
  obtain ⟨rate, hrate, hprobability⟩ := rate_eq_ok ha hasn
  refine ⟨rate, ?_⟩
  simp only [annealed, hrate, hprobability, bind, Except.bind]
  rfl

end SlotSelection
end TschLearning
