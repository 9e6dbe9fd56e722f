import TschLearning.Proofs.Binary64.Sign

/-! Binary64 numbers that are defined. Integers are converted to such numbers, whatever is rounded
on the way, and packing a number into its bits does not make it undefined. -/

namespace TschLearning.Binary64

open Float.Model (UnpackedFloat Format)
open Float.Model.UnpackedFloat

variable (spec : Format)

/-! ### Packing -/

/-- Bits whose exponent is not the largest one are those of a number. -/
theorem unpack_packComponents_ne (s : Sign) {e : BitVec spec.exponentBits}
    (m : BitVec spec.mantissaBitsWithoutImplicit) (he : e ≠ -1#_) :
    UnpackedFloat.unpack spec (packComponents spec s e m) ≠ .notANumber := by
  unfold UnpackedFloat.unpack
  simp only [unpackExponent_packComponents, if_neg he]
  split
  · split <;> simp
  · simp

theorem unpack_packedInfinity_ne (s : Sign) :
    UnpackedFloat.unpack spec (packedInfinity spec s) ≠ .notANumber := by
  unfold UnpackedFloat.unpack packedInfinity
  simp [unpackExponent_packComponents, unpackMantissa_packComponents]

theorem unpack_pack_ne {u : UnpackedFloat} (h : u ≠ .notANumber) :
    UnpackedFloat.unpack spec (UnpackedFloat.pack spec u) ≠ .notANumber := by
  cases u with
  | notANumber => exact absurd rfl h
  | infinity s => exact unpack_packedInfinity_ne spec s
  | zero s => simp [UnpackedFloat.pack]
  | finite s m e hm =>
    simp only [UnpackedFloat.pack]
    split
    · exact unpack_packedInfinity_ne spec s
    · rename_i hexponent
      split
      · refine unpack_packComponents_ne spec s _ fun heq => hexponent ?_
        have hnat := congrArg BitVec.toNat heq
        rw [BitVec.neg_one_eq_allOnes, BitVec.toNat_allOnes, BitVec.toNat_ofNat,
          Nat.mod_eq_of_lt (by omega)] at hnat
        omega
      · refine unpack_packComponents_ne spec s _ fun heq => ?_
        have hbits := spec.he
        simp [Nat.ne_of_gt hbits] at heq

/-! ### Conversion -/

theorem roundWithAccuracy_ne (s : Sign) (m : Nat) (e : Int) (accuracy : Accuracy) :
    roundWithAccuracy spec s m e accuracy ≠ .notANumber := by
  simp only [roundWithAccuracy]
  split <;> simp

theorem ofNat_ne (n : Nat) : UnpackedFloat.ofNat spec n ≠ .notANumber := by
  simp only [UnpackedFloat.ofNat, UnpackedFloat.ofInt, UnpackedFloat.normalize]
  split
  · exact roundWithAccuracy_ne spec _ _ _ _
  · simp
  · exact roundWithAccuracy_ne spec _ _ _ _

/-- A product with a finite number other than zero. -/
theorem mul_finite_ne {u : UnpackedFloat} (h : u ≠ .notANumber) (s : Sign) (m : Nat) (e : Int)
    (hm : 0 < m) : UnpackedFloat.mul spec u (.finite s m e hm) ≠ .notANumber := by
  cases u with
  | notANumber => exact absurd rfl h
  | infinity | zero => simp [UnpackedFloat.mul]
  | finite => exact roundWithAccuracy_ne spec _ _ _ _

theorem ofScientific_ne (n : Nat) (e : Int) :
    UnpackedFloat.ofScientific spec n e ≠ .notANumber := by
  unfold UnpackedFloat.ofScientific
  split
  · simp
  split
  · simp
  split
  · simp
  split
  · exact roundWithAccuracy_ne spec _ _ _ _
  · exact roundWithAccuracy_ne spec _ _ _ _

theorem floatOfNat_ne (n : Nat) : (Float.ofNat n).toModel.unpack ≠ .notANumber := by
  show (Float.ofScientific n false 0).toModel.unpack ≠ .notANumber
  unfold Float.ofScientific
  split
  · refine unpack_pack_ne Format.binary64 ?_
    -- the first power of ten
    have hone : (Float.ofBits 4607182418800017408).toModel.unpack
        = .finite .positive (2 ^ 52) (-52) (by decide) := rfl
    show UnpackedFloat.mul Format.binary64 _ (Float.ofBits 4607182418800017408).toModel.unpack
      ≠ .notANumber
    rw [hone]
    exact mul_finite_ne Format.binary64 (unpack_pack_ne Format.binary64 (ofNat_ne _ _)) _ _ _ _
  · exact unpack_pack_ne Format.binary64 (ofScientific_ne Format.binary64 _ _)

theorem floatOfInt_ne (i : Int) : (Float.ofInt i).toModel.unpack ≠ .notANumber := by
  cases i with
  | ofNat n => exact floatOfNat_ne n
  | negSucc n =>
    refine unpack_pack_ne Format.binary64 ?_
    have h := floatOfNat_ne n.succ
    cases hu : (Float.ofNat n.succ).toModel.unpack <;> simp_all [UnpackedFloat.neg]

/-- A number that is defined equals itself. -/
theorem beq_self {x : Float} (h : x.toModel.unpack ≠ .notANumber) : (x == x) = true :=
  (beq_iff_ne_notANumber_and_eq _ _).2 ⟨h, h, .inl rfl⟩

theorem ne_notANumber_of_isFinite {x : Float} (h : x.isFinite = true) :
    x.toModel.unpack ≠ .notANumber := by
  intro hx
  have hfinite : x.toModel.unpack.isFinite = true := h
  rw [hx] at hfinite
  cases hfinite

end TschLearning.Binary64
