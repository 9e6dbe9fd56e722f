import TschLearning.Number
import TschLearning.Proofs.Binary64.Sign

/-! Binary64 numbers within `[0, 1]`. Finite numbers are in canonical form, so that of two positive
ones the exponents are compared first and the mantissas second. -/

namespace TschLearning.Binary64

open Float.Model (UnpackedFloat Format)
open Float.Model.UnpackedFloat

theorem lt_iff (x y : Float) : x < y ↔ x.toModel.unpack.lt y.toModel.unpack = true := by
  show decide _ = true ↔ _
  rw [decide_eq_true_iff]
  exact Iff.rfl

theorem le_iff (x y : Float) : x ≤ y ↔ x.toModel.unpack.le y.toModel.unpack = true := by
  show decide _ = true ↔ _
  rw [decide_eq_true_iff]
  exact Iff.rfl

theorem unpack_zero : (0.0 : Float).toModel.unpack = .zero .positive := rfl

theorem unpack_one :
    (1.0 : Float).toModel.unpack = .finite .positive (2 ^ 52) (-52) (by decide) := rfl

/-- The mantissa of a finite number has its full length, unless the exponent is the least one. -/
theorem canonical {x : Float} {s : Sign} {m : Nat} {e : Int} {h : 0 < m}
    (hx : x.toModel.unpack = .finite s m e h) : e = -1074 ∨ 2 ^ 52 ≤ m := by
  change UnpackedFloat.unpack Format.binary64 _ = _ at hx
  unfold UnpackedFloat.unpack at hx
  simp only at hx
  split at hx
  · split at hx <;> cases hx
  · split at hx
    · rename_i hexp
      split at hx
      · cases hx
      · cases hx
        rw [hexp]
        exact .inl rfl
    · cases hx
      rw [BitVec.toNat_append, Nat.shiftLeft_eq]
      exact .inr Nat.left_le_or

theorem zero_le {x : Float} (h : NotBelow x.toModel.unpack)
    (hx : x.toModel.unpack ≠ .notANumber) : 0.0 ≤ x := by
  rw [le_iff, unpack_zero]
  cases hu : x.toModel.unpack with
  | notANumber => exact absurd hu hx
  | zero s => rfl
  | infinity s =>
    rw [hu] at h
    obtain rfl : s = .positive := h
    rfl
  | finite s m e hm =>
    rw [hu] at h
    obtain rfl : s = .positive := h
    rfl

/-- A number that is below another one is a number. -/
theorem ne_notANumber_of_lt {x y : Float} (h : x < y) : x.toModel.unpack ≠ .notANumber := by
  intro hx
  rw [lt_iff, hx] at h
  cases h

/-- Of two finite numbers that are positive, the one with the smaller exponent is the smaller. -/
theorem finite_le_iff {m n : Nat} {d e : Int} (hm : 0 < m) (hn : 0 < n) :
    (UnpackedFloat.finite .positive m d hm).le (.finite .positive n e hn) = true ↔
      d < e ∨ d = e ∧ m ≤ n := by
  show ((compare d e).then (compare m n)).isLE = true ↔ _
  rw [Ordering.isLE_then_iff_or, Int.compare_eq_lt, Int.compare_eq_eq, Nat.isLE_compare]

theorem finite_lt_iff {m n : Nat} {d e : Int} (hm : 0 < m) (hn : 0 < n) :
    (UnpackedFloat.finite .positive m d hm).lt (.finite .positive n e hn) = true ↔
      d < e ∨ d = e ∧ m < n := by
  show (some ((compare d e).then (compare m n)) == some Ordering.lt) = true ↔ _
  rw [beq_iff_eq, Option.some.injEq, Ordering.then_eq_lt, Int.compare_eq_lt, Int.compare_eq_eq,
    Nat.compare_eq_lt]

/-- What is below a number that is at most one is at most one. -/
theorem le_one_of_lt {x y : Float} (hxy : x < y) (hy : y ≤ 1.0) : x ≤ 1.0 := by
  rw [lt_iff] at hxy
  rw [le_iff, unpack_one] at hy ⊢
  cases hx : x.toModel.unpack with
  | notANumber =>
    rw [hx] at hxy
    cases hxy
  | zero s => rfl
  | infinity s =>
    cases s with
    | negative => rfl
    | positive =>
      rw [hx] at hxy
      cases hu : y.toModel.unpack with
      | infinity s => rw [hu] at hxy; cases s <;> cases hxy
      | _ => rw [hu] at hxy; cases hxy
  | finite s m e hm =>
    cases s with
    | negative => rfl
    | positive =>
      rw [hx] at hxy
      cases hu : y.toModel.unpack with
      | notANumber | zero => rw [hu] at hxy; cases hxy
      | infinity s => cases s <;> simp [hu, UnpackedFloat.lt, UnpackedFloat.le,
          UnpackedFloat.compare] at hxy hy
      | finite s n d hn =>
        cases s with
        | negative => rw [hu] at hxy; cases hxy
        | positive =>
          rw [hu, finite_lt_iff] at hxy
          rw [hu, finite_le_iff] at hy
          rw [finite_le_iff]
          omega

/-! ### Comparisons with integers -/

theorem fraction_pos {m : Nat} (hm : 0 < m) (e : Int) : 0 < (fraction m e).1 := by
  unfold fraction
  split
  · exact hm
  · exact Nat.mul_pos hm (Nat.two_pow_pos _)

theorem value_finite {x : Float} {s : Sign} {m : Nat} {e : Int} {h : 0 < m}
    (hx : x.toModel.unpack = .finite s m e h) : value x = .dyadic (isNegative s) m e := by
  rw [value, hx]

/-- A negative finite number is below zero. -/
theorem compareInt_zero_of_negative {x : Float} {m : Nat} {e : Int} {h : 0 < m}
    (hx : x.toModel.unpack = .finite .negative m e h) :
    Number.compareInt 0 (value x) = some .gt := by
  have hpos := fraction_pos h e
  rw [value_finite hx]
  show some (compare _ _) = _
  rw [Option.some.injEq, Int.compare_eq_gt]
  show -((fraction m e).1 : Int) < 0 * ((fraction m e).2 : Int)
  omega

theorem notBelow_of_not_lt {x : Float} (h : Number.lt (.float x) (.int 0) = false) :
    NotBelow x.toModel.unpack := by
  cases hu : x.toModel.unpack with
  | notANumber | zero => exact trivial
  | infinity s =>
    cases s with
    | positive => rfl
    | negative => simp [Number.lt, Number.compare?, value, hu, Number.compareInt, isNegative] at h
  | finite s m e hm =>
    cases s with
    | positive => rfl
    | negative => simp [Number.lt, Number.compare?, compareInt_zero_of_negative hu] at h

theorem zero_le_of_le {x : Float} (h : Number.le (.int 0) (.float x) = true) : 0.0 ≤ x := by
  refine zero_le (notBelow_of_not_lt ?_) ?_
  · rw [Number.le, Number.compare?] at h
    rw [Number.lt, Number.compare?]
    cases hc : Number.compareInt 0 (value x) with
    | none => rfl
    | some o => cases o <;> simp_all
  · intro hu
    simp [Number.le, Number.compare?, value, hu, Number.compareInt] at h

/-- A finite number that is at most one is so by its exponent or its mantissa. -/
theorem finite_le_one {x : Float} {m : Nat} {e : Int} {hm : 0 < m}
    (hx : x.toModel.unpack = .finite .positive m e hm)
    (h : ((fraction m e).1 : Int) ≤ (fraction m e).2) : e < -52 ∨ e = -52 ∧ m ≤ 2 ^ 52 := by
  rcases canonical hx with rfl | hfull
  · exact .inl (by decide)
  · unfold fraction at h
    split at h
    · rename_i he
      have hle : m ≤ 2 ^ (-e).toNat := Int.ofNat_le.1 h
      have hexp : 52 ≤ (-e).toNat := (Nat.pow_le_pow_iff_right (by decide)).1 (hfull.trans hle)
      by_cases heq : e = -52
      · subst heq
        exact .inr ⟨rfl, hle⟩
      · exact .inl (by omega)
    · have hpow : m * 1 ≤ m * 2 ^ e.toNat := Nat.mul_le_mul_left m (Nat.two_pow_pos _)
      have hle : m * 2 ^ e.toNat ≤ 1 := Int.ofNat_le.1 h
      omega

theorem le_one_of_le {x : Float} (h : Number.le (.float x) (.int 1) = true) : x ≤ 1.0 := by
  rw [le_iff, unpack_one]
  cases hu : x.toModel.unpack with
  | notANumber => simp [Number.le, Number.compare?, value, hu, Number.compareInt] at h
  | zero s => rfl
  | infinity s =>
    cases s with
    | negative => rfl
    | positive => simp [Number.le, Number.compare?, value, hu, Number.compareInt, isNegative] at h
  | finite s m e hm =>
    cases s with
    | negative => rfl
    | positive =>
      rw [finite_le_iff]
      refine finite_le_one hu ?_
      simp only [Number.le, Number.compare?, value_finite hu, Number.compareInt, Option.map_some,
        Option.any_some, Ordering.isLE_swap, Int.isGE_compare, signed, isNegative] at h
      simpa using h

end TschLearning.Binary64
