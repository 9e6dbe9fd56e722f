import TschLearning.Proofs.Scheduler.Steps

/-! Channel schedulers before their first slot. -/

namespace TschLearning

variable {α : Type}

def Parameters.level (x : α) (threshold : Nat) : Parameters α where
  alpha := x
  gamma := x
  epsilon := x
  sigma := x
  successReward := x
  failureReward := x
  deactivationThreshold := threshold
  epsilonCap := x
  epsilonScale := x
  packetProbability := x
  packetSize := 1
  exploreWhileSettling := false

namespace ChannelHopping

/-- A scheduler of a given size that has learned nothing. -/
def fresh [Zero α] (params : Parameters α) (name : Datum) (voice : Voice) (slots channels : Nat) :
    ChannelHopping α where
  params
  name
  voice
  table := Grid.empty slots channels 0
  outcomes := Grid.empty slots channels false
  activation := ⟨.int params.deactivationThreshold, 0, params.deactivationThreshold == 0⟩
  configuration := []
  deployed := false
  asn := none
  epochs := 0
  successes := 0
  attempts := 0

/-- Tables of a size that can be kept. -/
structure Fits (slots channels : Nat) : Prop where
  slots_pos : 0 < slots
  channels_pos : 0 < channels
  area : slots * channels * 8 ≤ storable

theorem Fits.channels_lt {slots channels : Nat} (h : Fits slots channels) :
    channels < addressable := by
  have hle : channels ≤ slots * channels := Nat.le_mul_of_pos_left channels h.slots_pos
  have harea := h.area
  unfold storable at harea
  unfold addressable
  omega

theorem Fits.create_eq_ok [Zero α] {slots channels : Nat} (h : Fits slots channels) :
    ValueTable.create (α := α) (.int slots) (.int channels)
      = .ok (Grid.empty slots channels 0) := by
  have hdimension : ∀ (what : String) {n : Nat}, 0 < n → checkDimension what (.int n) = .ok n := by
    intro what n hn
    have hle : (1 : Int) ≤ n := by omega
    simp only [checkDimension, if_pos hle, Int.toNat_natCast]
  have harea : checkArea 8 slots channels = .ok () := by
    have hle := h.area
    have hs : slots ≤ slots * channels := Nat.le_mul_of_pos_right slots h.channels_pos
    have hc : channels ≤ slots * channels := Nat.le_mul_of_pos_left channels h.slots_pos
    have hstorable : storable < addressable := by decide
    have hsmall : ¬(addressable ≤ slots ∨ addressable ≤ channels ∨
        addressable ≤ slots * channels * 8) := by omega
    simp only [checkArea, if_neg hsmall, if_neg (Nat.not_lt.2 hle)]
    rfl
  simp only [ValueTable.create, hdimension _ h.slots_pos, hdimension _ h.channels_pos, harea, bind,
    Except.bind]
  rfl

theorem create_activation (threshold : Nat) :
    Activation.create (.int threshold) = .ok ⟨.int threshold, 0, threshold == 0⟩ := by
  have hneg : ¬((threshold : Int) < 0) := by omega
  have hzero : (!decide ((0 : Int) < threshold)) = (threshold == 0) := by
    cases threshold with
    | zero => rfl
    | succ n => simp
  simp only [Activation.create, Datum.comparable, Datum.number?, bind, Except.bind, Number.lt_int,
    decide_eq_true_eq, if_neg hneg, hzero]
  rfl

theorem checkDimension_eq_ok {name : String} {n m : Nat} (h : checkDimension name (.int n) = .ok m) :
    0 < n ∧ m = n := by
  simp only [checkDimension] at h
  split at h
  · cases h
    omega
  · cases h

theorem checkArea_eq_ok {cellBytes slots channels : Nat}
    (h : checkArea cellBytes slots channels = .ok ()) : slots * channels * cellBytes ≤ storable := by
  unfold checkArea at h
  simp only [bind, Except.bind] at h
  split at h
  · cases h
  · split at h
    · cases h
    · rename_i hle
      exact Nat.not_lt.1 hle

/-- A table that is made has a size that can be kept. -/
theorem fits_of_create_eq_ok [Zero α] {slots channels : Nat} {table : ValueTable α}
    (h : ValueTable.create (.int slots) (.int channels) = .ok table) : Fits slots channels := by
  simp only [ValueTable.create, bind, Except.bind] at h
  cases hs : checkDimension "slots" (.int slots) with
  | error f => simp [hs] at h
  | ok s =>
    cases hc : checkDimension "channels" (.int channels) with
    | error f => simp [hs, hc] at h
    | ok n =>
      obtain ⟨hspos, rfl⟩ := checkDimension_eq_ok hs
      obtain ⟨hcpos, rfl⟩ := checkDimension_eq_ok hc
      cases ha : checkArea 8 s n with
      | error f => simp [hs, hc, ha] at h
      | ok u => exact ⟨hspos, hcpos, checkArea_eq_ok ha⟩

/-- A scheduler that is made has a size that can be kept, and has learned nothing. -/
theorem create_eq_ok [Zero α] {params : Parameters α} {name : Datum} {voice : Voice}
    {slots channels : Nat} {c : ChannelHopping α}
    (h : create params name voice (.int slots) (.int channels) = .ok c) :
    Fits slots channels ∧ c = fresh params name voice slots channels := by
  cases htable : ValueTable.create (α := α) (.int slots) (.int channels) with
  | error f => simp [create, htable, bind, Except.bind] at h
  | ok table =>
    have hfits := fits_of_create_eq_ok htable
    simp only [create, hfits.create_eq_ok, create_activation, bind, Except.bind] at h
    cases h
    exact ⟨hfits, rfl⟩

end ChannelHopping
end TschLearning
