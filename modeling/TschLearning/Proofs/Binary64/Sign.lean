import Mathlib
import TschLearning.Binary64

/-! Signs of binary64 numbers. Products and quotients of numbers without a minus sign have none
either, whatever is rounded, and packing a number into its bits keeps its sign. -/

namespace TschLearning.Binary64

open Float.Model (UnpackedFloat Format)
open Float.Model.UnpackedFloat

def Unsigned : UnpackedFloat → Prop
  | .notANumber => True
  | .infinity s | .zero s | .finite s .. => s = .positive

/-- Not below zero; a zero may have any sign, and an undefined number is not below zero. -/
def NotBelow : UnpackedFloat → Prop
  | .notANumber | .zero _ => True
  | .infinity s | .finite s .. => s = .positive

theorem Unsigned.notBelow {u : UnpackedFloat} (h : Unsigned u) : NotBelow u := by
  cases u <;> first | exact h | exact trivial

variable (spec : Format)

/-! ### Packing -/

theorem unsigned_unpack_packComponents (e : BitVec spec.exponentBits)
    (m : BitVec spec.mantissaBitsWithoutImplicit) :
    Unsigned (UnpackedFloat.unpack spec (packComponents spec .positive e m)) := by
  have hsign : Sign.ofBitVec (unpackSign (packComponents spec .positive e m)) = .positive := by
    rw [unpackSign_packComponents, Sign.ofBitVec_toBitVec]
  unfold UnpackedFloat.unpack
  simp only [hsign]
  split
  · split
    · rfl
    · exact trivial
  · split
    · split <;> rfl
    · rfl

theorem Unsigned.unpack_pack {u : UnpackedFloat} (h : Unsigned u) :
    Unsigned (UnpackedFloat.unpack spec (UnpackedFloat.pack spec u)) := by
  cases u with
  | notANumber =>
    rw [UnpackedFloat.pack, unpack_packedNaN]
    exact trivial
  | infinity s =>
    obtain rfl : s = .positive := h
    exact unsigned_unpack_packComponents spec _ _
  | zero s =>
    obtain rfl : s = .positive := h
    exact unsigned_unpack_packComponents spec _ _
  | finite s m e hm =>
    obtain rfl : s = .positive := h
    simp only [UnpackedFloat.pack]
    split
    · exact unsigned_unpack_packComponents spec _ _
    · split <;> exact unsigned_unpack_packComponents spec _ _

theorem NotBelow.unpack_pack {u : UnpackedFloat} (h : NotBelow u) :
    NotBelow (UnpackedFloat.unpack spec (UnpackedFloat.pack spec u)) := by
  by_cases hzero : ∃ s, u = .zero s
  · obtain ⟨s, rfl⟩ := hzero
    rw [UnpackedFloat.pack, unpack_packedZero]
    exact trivial
  · have hu : Unsigned u := by
      cases u with
      | notANumber => exact trivial
      | zero s => exact absurd ⟨s, rfl⟩ hzero
      | infinity s => exact h
      | finite s m e hm => exact h
    exact (hu.unpack_pack spec).notBelow

/-! ### Arithmetic -/

theorem unsigned_roundWithAccuracy (m : Nat) (e : Int) (accuracy : Accuracy) :
    Unsigned (roundWithAccuracy spec .positive m e accuracy) := by
  simp only [roundWithAccuracy]
  split <;> rfl

theorem unsigned_ofNat (n : Nat) : Unsigned (UnpackedFloat.ofNat spec n) := by
  simp only [UnpackedFloat.ofNat, UnpackedFloat.ofInt, UnpackedFloat.normalize]
  split
  · rename_i h
    exact absurd (Int.compare_eq_lt.1 h) (by omega)
  · rfl
  · exact unsigned_roundWithAccuracy spec _ _ _

theorem Unsigned.mul {x y : UnpackedFloat} (hx : Unsigned x) (hy : Unsigned y) :
    Unsigned (UnpackedFloat.mul spec x y) := by
  cases x <;> cases y <;> first
    | exact trivial
    | (cases hx; cases hy; first | rfl | exact unsigned_roundWithAccuracy spec _ _ _)

theorem NotBelow.div {x y : UnpackedFloat} (hx : NotBelow x) (hy : Unsigned y) :
    NotBelow (UnpackedFloat.div spec x y) := by
  cases x <;> cases y <;> first
    | exact trivial
    | (cases hx; cases hy; first
      | rfl
      | exact (unsigned_roundWithAccuracy spec _ _ _).notBelow)

theorem unsigned_ofScientific (n : Nat) (e : Int) :
    Unsigned (UnpackedFloat.ofScientific spec n e) := by
  unfold UnpackedFloat.ofScientific
  split
  · rfl
  · split
    · rfl
    · split
      · rfl
      · split
        · exact Unsigned.mul spec rfl rfl
        · exact unsigned_roundWithAccuracy spec _ _ _

/-- A natural number has no minus sign. -/
theorem unsigned_floatOfNat (n : Nat) : Unsigned (Float.ofNat n).toModel.unpack := by
  show Unsigned (Float.ofScientific n false 0).toModel.unpack
  unfold Float.ofScientific
  split
  · refine Unsigned.unpack_pack Format.binary64 (Unsigned.mul Format.binary64 ?_ ?_)
    · exact Unsigned.unpack_pack Format.binary64 (unsigned_ofNat Format.binary64 _)
    · show Unsigned (Float.ofBits 4607182418800017408).toModel.unpack
      rfl
  · exact Unsigned.unpack_pack Format.binary64 (unsigned_ofScientific Format.binary64 _ _)

theorem notBelow_div_ofNat {x : Float} (h : NotBelow x.toModel.unpack) (n : Nat) :
    NotBelow (x / Float.ofNat n).toModel.unpack :=
  NotBelow.unpack_pack Format.binary64 (h.div Format.binary64 (unsigned_floatOfNat n))

end TschLearning.Binary64
