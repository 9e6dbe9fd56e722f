import TschLearning.Proofs.Mac.Confined
import TschLearning.Proofs.Network.Coupled

/-! What a network knows about the devices that it has accepted. Its model of interference covers
the channels that it was made with, and a device of another slotframe is turned away, so the model
can be asked about every channel that an accepted device comes to use. -/

namespace TschLearning.Network

variable {μ κ ο α : Type}

/-- Networks as they come about: one is created, accepts devices, and goes through slots. -/
inductive SetUp [Arith α] : Network μ ο α → Prop where
  | create {slots channels interference slotDuration traffic net}
      (h : create slots channels interference slotDuration traffic = .ok net) : SetUp net
  | addMac {net net'} {handle : μ} {κ : Type} {mac : Mac κ} (hnet : SetUp net)
      (h : addMac net handle mac = .ok net') : SetUp net'
  | run {net} (asn : Nat) (started : Bool) (observers : Notifier ο) (hnet : SetUp net) :
      SetUp { net with asn, started, observers }

/-- A model of interference for other channels than the network's is turned away. -/
theorem covers_create [Arith α] {slots channels : Datum} {interference : Option (Interference α)}
    {slotDuration : Except Fault Number} {traffic : Except Fault α} {net : Network μ ο α}
    (h : create slots channels interference slotDuration traffic = .ok net) :
    Datum.same (.int net.interference.channels) net.channels = true := by
  have hcover : ∃ model : Interference α,
      create slots channels (some model) slotDuration traffic = .ok net := by
    cases interference with
    | some model => exact ⟨model, h⟩
    | none =>
      obtain ⟨model, -, h⟩ := bind_eq_ok.1 h
      exact ⟨model, h⟩
  obtain ⟨model, h⟩ := hcover
  simp only [create, bind, Except.bind, pure, Except.pure] at h
  cases hsame : Datum.same (.int model.channels) channels with
  | true =>
    rw [hsame] at h
    cases h
    exact hsame
  | false =>
    rw [hsame] at h
    cases h

theorem addMac_eq_ok {net net' : Network μ ο α} {handle : μ} {mac : Mac κ}
    (h : addMac net handle mac = .ok net') :
    Datum.same mac.slots net.slots = true ∧ Datum.same mac.channels net.channels = true ∧
      net' = { net with macs := net.macs ++ [handle] } := by
  unfold addMac at h
  split at h
  · rename_i hsame
    rw [Bool.and_eq_true] at hsame
    cases h
    exact ⟨hsame.1, hsame.2, rfl⟩
  · cases h

/-- The model of interference has a probability for every channel. -/
theorem SetUp.covers [Arith α] {net : Network μ ο α} (h : net.SetUp) :
    Datum.same (.int net.interference.channels) net.channels = true := by
  induction h with
  | create h => exact covers_create h
  | addMac _ h ih =>
    obtain ⟨-, -, rfl⟩ := addMac_eq_ok h
    exact ih
  | run _ _ _ _ ih => exact ih

/-- Every channel of an accepted device is one that the model of interference covers. -/
theorem SetUp.lt_of_addMac [Arith α] {net net' : Network μ ο α} {handle : μ} {mac : Mac κ}
    (hnet : net.SetUp) (h : Network.addMac net handle mac = .ok net') {c : Int}
    (hc : mac.channels.Bounds c) : c < net'.interference.channels := by
  obtain ⟨-, hchannels, -⟩ := addMac_eq_ok h
  have hcovers := (hnet.addMac h).covers
  obtain ⟨-, -, rfl⟩ := addMac_eq_ok h
  exact (hc.of_same hchannels).lt_of_same hcovers

end TschLearning.Network

/-- The failure probability of a channel is found at its position. -/
theorem TschLearning.Interference.pick_of_lt {α : Type} [Arith α] {model : Interference α} {c : Int}
    (h0 : 0 ≤ c) (hc : c < model.channels) :
    model.pick (.int c) ≠ .error .positionOutOfRange ∧
      (model.channels < addressable → ∃ p, model.pick (.int c) = .ok p) := by
  obtain ⟨n, rfl⟩ := Int.eq_ofNat_of_zero_le h0
  have hlt : n < model.channels := Int.ofNat_lt.1 hc
  refine ⟨?_, fun haddressable => Network.Coupled.pick_eq_ok hlt haddressable⟩
  obtain ⟨p, hp⟩ := Network.Coupled.probabilityAt_eq_ok hlt
  simp only [pick, hp]
  split
  · simp
  · simp
