import TschLearning.Datum.Conversion

/-! Numbers of different kinds compared. Equal numbers compare alike with every integer, whether
they are integers or binary64 numbers, so an integer below a number is below every integer that
equals it. -/

namespace TschLearning

open Binary64

namespace Binary64

open Float.Model (UnpackedFloat)

theorem fraction_den_pos (m : Nat) (e : Int) : 0 < (fraction m e).2 := by
  unfold fraction
  split
  · exact Nat.two_pow_pos _
  · exact Nat.one_pos

theorem beq_iff (x y : Float) :
    (x == y) = true ↔ x.toModel.unpack.compare y.toModel.unpack = some .eq := by
  show (x.toModel.unpack.compare y.toModel.unpack == some .eq) = true ↔ _
  exact beq_iff_eq

/-- Numbers that compare as equal are one, or zeros. -/
theorem eq_or_zero_of_compare_eq {u v : UnpackedFloat} (h : u.compare v = some .eq) :
    u = v ∨ ∃ s s', u = .zero s ∧ v = .zero s' := by
  cases u with
  | notANumber => cases h
  | zero s =>
    cases v with
    | zero s' => exact .inr ⟨s, s', rfl, rfl⟩
    | notANumber => cases h
    | infinity s' => cases s' <;> cases h
    | finite s' => cases s' <;> cases h
  | infinity s =>
    cases v with
    | infinity s' => cases s <;> cases s' <;> first | exact .inl rfl | cases h
    | notANumber => cases s <;> cases h
    | _ => cases s <;> cases h
  | finite s m e hm =>
    cases v with
    | finite s' n d hn =>
      have hsame : s = s' ∧ (compare e d).then (compare m n) = .eq := by
        cases s with
        | positive =>
          cases s' with
          | positive => exact ⟨rfl, Option.some.inj h⟩
          | negative => cases h
        | negative =>
          cases s' with
          | positive => cases h
          | negative => exact ⟨rfl, Ordering.swap_inj.1 (Option.some.inj h)⟩
      obtain ⟨rfl, hthen⟩ := hsame
      rw [Ordering.then_eq_eq, Int.compare_eq_eq, Nat.compare_eq_eq] at hthen
      obtain ⟨rfl, rfl⟩ := hthen
      exact .inl rfl
    | notANumber => cases s <;> cases h
    | zero s' => cases s <;> cases h
    | infinity s' => cases s <;> cases s' <;> cases h

end Binary64

namespace Number

theorem compare_mul_right (i j : Int) {d : Int} (hd : 0 < d) :
    compare (i * d) (j * d) = compare i j := by
  rcases Int.lt_trichotomy i j with h | rfl | h
  · rw [Int.compare_eq_lt.2 h, Int.compare_eq_lt]
    exact Int.mul_lt_mul_of_pos_right h hd
  · rw [Int.compare_eq_eq.2 rfl, Int.compare_eq_eq.2 rfl]
  · rw [Int.compare_eq_gt.2 h, Int.compare_eq_gt]
    exact Int.mul_lt_mul_of_pos_right h hd

theorem compareInt_of_eq {j : Int} {v : Value} (h : compareInt j v = some .eq) (i : Int) :
    compareInt i v = some (compare i j) := by
  cases v with
  | undefined => cases h
  | infinite negative => cases negative <;> cases h
  | dyadic negative m e =>
    simp only [compareInt, Option.some.injEq, Int.compare_eq_eq] at h ⊢
    rw [← h]
    exact compare_mul_right i j (Int.ofNat_lt.2 (fraction_den_pos m e))

/-- Equal binary64 numbers compare alike with integers. -/
theorem compareInt_congr {x y : Float} (h : (x == y) = true) (i : Int) :
    compareInt i (value x) = compareInt i (value y) := by
  unfold value
  rcases eq_or_zero_of_compare_eq ((beq_iff x y).1 h) with heq | ⟨s, s', hx, hy⟩
  · rw [heq]
  · rw [hx, hy]
    cases s <;> cases s' <;> rfl

theorem compare?_int_congr {m n : Number} (h : m.same n = true) (i : Int) :
    compare? (.int i) m = compare? (.int i) n := by
  rw [same, beq_iff_eq] at h
  cases m with
  | int a =>
    cases n with
    | int b =>
      have hab : a = b := Int.compare_eq_eq.1 (Option.some.inj h)
      rw [hab]
    | float y => exact (compareInt_of_eq h i).symm
  | float x =>
    cases n with
    | int b =>
      obtain ⟨o, hb, ho⟩ := Option.map_eq_some_iff.1 h
      cases o <;> cases ho
      exact compareInt_of_eq hb i
    | float y =>
      refine compareInt_congr ?_ i
      simp only [compare?] at h
      grind

theorem lt_congr {m n : Number} (h : m.same n = true) (i : Int) :
    lt (.int i) m = lt (.int i) n := by
  rw [lt, lt, compare?_int_congr h]

/-- An integer below a number is below the integer that the number equals. -/
theorem lt_of_lt_of_same {i j : Int} {n : Number} (hlt : lt (.int i) n = true)
    (hsame : same (.int j) n = true) : i < j := by
  rw [← lt_congr hsame, lt_int, decide_eq_true_iff] at hlt
  exact hlt

end Number
end TschLearning
