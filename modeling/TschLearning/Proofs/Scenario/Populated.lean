import TschLearning.Proofs.Draws.Sound
import TschLearning.Proofs.Scenario.InOrder
import TschLearning.Proofs.Scheduler.Fresh

/-! Slot-selection scenarios up to their first slot. All devices are made, unless the slots of a
single one are too many to be gone through, and then they are in order. -/

namespace TschLearning

namespace SlotSelection

variable {μ α : Type} [Arith α]

def fresh (params : Parameters α) (node : Datum) (slots : Nat) (mac : μ)
    (destination channelOffset : Datum) (voice : Voice) : SlotSelection μ α where
  params
  node
  destination
  channelOffset
  mac
  voice
  table := Grid.empty slots 1 0
  peaking := ⟨.replicate slots 0⟩
  epsilon := params.epsilon
  activation := ⟨.int params.deactivationThreshold, 0, params.deactivationThreshold == 0⟩
  deployer := .create [mac]
  action := 0
  asn := none
  requested := none
  successes := 0
  attempts := 0
  delay := 0

theorem create_of_fits {slots : Nat} (h : ChannelHopping.Fits slots 1) (params : Parameters α)
    (node : Datum) (mac : μ) (destination channelOffset : Datum) (voice : Voice) :
    create params node (.int slots) mac destination channelOffset voice
      = .ok (fresh params node slots mac destination channelOffset voice) := by
  have htable := h.create_eq_ok (α := α)
  rw [Nat.cast_one] at htable
  simp only [create, htable, ChannelHopping.create_activation, bind, Except.bind]
  rfl

/-- A scheduler that is made has a size that can be kept, and has learned nothing. -/
theorem create_eq_ok {slots : Nat} {params : Parameters α} {node : Datum} {mac : μ}
    {destination channelOffset : Datum} {voice : Voice} {a : SlotSelection μ α}
    (h : create params node (.int slots) mac destination channelOffset voice = .ok a) :
    ChannelHopping.Fits slots 1 ∧
      a = fresh params node slots mac destination channelOffset voice := by
  cases htable : ValueTable.create (α := α) (.int slots) (.int 1) with
  | error f => simp [create, htable, bind, Except.bind] at h
  | ok table =>
    have hfits : ChannelHopping.Fits slots 1 := ChannelHopping.fits_of_create_eq_ok htable
    rw [create_of_fits hfits] at h
    cases h
    exact ⟨hfits, rfl⟩

end SlotSelection

namespace Star

open SlotSelection

variable {ρ : Type} {slots i : Nat} {mac : Mac Nat} {a : SlotSelection Nat Float} {g : ρ}
  {s : Star ρ Float}

/-- A device and its scheduler before their first slot. -/
structure Unused (slots i : Nat) (mac : Mac Nat) (a : SlotSelection Nat Float) : Prop
    extends Fitted slots i mac a where
  queue_eq : mac.queue = []
  asn_eq : a.asn = none
  attempts_eq : a.attempts = 0
  successes_eq : a.successes = 0
  delay_eq : a.delay = 0

theorem Unused.inOrder (h : Unused slots i mac a) (hmac : s.macs[i]? = some mac)
    (hi : s.schedulers[i]? = some (a, g)) (hstatistics : s.statistics = .empty) :
    InOrder slots i 0 .resting ([], [], s) := by
  refine ⟨mac, a, g, hmac, hi, h.toFitted, ?_, ?_⟩
  · refine ⟨nofun, nofun, fun _ last hlast => ?_, .inl h.queue_eq, fun _ => nofun⟩
    cases h.asn_eq.symm.trans hlast
  · refine ⟨?_, ?_, ?_, ?_, ?_, ?_, List.forall_mem_nil _⟩
    · rw [h.attempts_eq, h.queue_eq, hstatistics]
      rfl
    · rw [h.attempts_eq, h.queue_eq]
      rfl
    · rw [h.successes_eq, hstatistics]
      rfl
    · rw [hstatistics]
      exact Nat.le_refl 0
    · rw [h.delay_eq]
      rfl
    · rw [h.delay_eq]
      exact Nat.zero_le _

end Star

namespace SlotSelectionScenario

open TschLearning.Star TschLearning.ChannelHopping

variable {ρ : Type} [Generator ρ Float] {c : SlotSelectionScenario Float} {slots : Nat}

/-- The scenario before its first slot. -/
def prepared (c : SlotSelectionScenario Float) (source : ρ) (seeded : Nat → Except Fault ρ) :
    Except Fault (Network Nat Unit Float × Star ρ Float) := do
  c.build (← c.network) source seeded

def wired (c : SlotSelectionScenario Float) : Network Nat Unit Float where
  slots := c.slots
  channels := .int 1
  interference := ⟨[0]⟩
  slotDuration := .ok slotLength
  traffic := .ok 0
  macs := List.range c.senders
  asn := 0
  started := true
  observers :=
    (Notifier.create (.text "transmission") (possessive Network.ownerLabel)).place ()
      (.number (.int 0))

omit [Generator ρ Float] in
theorem quiet_wired (hs : c.slots = .int slots) : Quiet c.senders slots c.wired where
  slots_eq := hs
  interference_eq := rfl
  traffic_eq := rfl
  macs_eq := rfl
  callees_eq := Notifier.callees_place_create _ _ () _

omit [Generator ρ Float] in
theorem network_eq (c : SlotSelectionScenario Float) : c.network = .ok { c.wired with
    macs := []
    started := false
    observers := .create (.text "transmission") (possessive Network.ownerLabel) } := by
  have hclear : (Interference.clear (.int 1) : Except Fault (Interference Float)) = .ok ⟨[0]⟩ := rfl
  have hsame : Datum.same (.int (Interference.channels (⟨[0]⟩ : Interference Float))) (.int 1)
      = true := by
    rw [Datum.same_int]
    exact decide_eq_true rfl
  simp only [network, Network.create, hclear, hsame, bind, Except.bind]
  rfl

omit [Generator ρ Float] in
theorem device_eq (hs : c.slots = .int slots) (hle : (slots : Int) ≤ Datum.stepLimit) (i : Nat) :
    c.device i = .ok {
      name := .text (senderName i), slots := .int slots, channels := .int 1
      owned := List.range slots, capacity := none, links := .empty, sequence := none, queue := []
      sink := some i, asn := none } := by
  simp only [device, Mac.create, hs, Datum.steps_int_of_le hle, bind, Except.bind]
  rfl

omit [Generator ρ Float] in
/-- The slots are too many to be gone through. -/
theorem device_eq_error (hs : c.slots = .int slots) (hlt : Datum.stepLimit < slots) (i : Nat) :
    c.device i = .error .outOfMemory := by
  simp only [device, Mac.create, hs, Datum.steps_int_of_lt hlt, bind, Except.bind]

theorem fits_of_le (hpos : 0 < slots) (hle : (slots : Int) ≤ Datum.stepLimit) : Fits slots 1 where
  slots_pos := hpos
  channels_pos := Nat.one_pos
  area := by
    unfold Datum.stepLimit at hle
    unfold storable
    omega

theorem scheduler_eq (hsound : Generator.Sound ρ) (hs : c.slots = .int slots)
    (hfits : Fits slots 1) (i : Nat) (g : ρ) :
    ∃ (slot : Int) (h : ρ), 0 ≤ slot ∧ slot < slots ∧
      c.scheduler i g = .ok ({ SlotSelection.fresh c.params (.int (i + 1)) slots i (.int 0) (.int 0)
        .ofModule with action := slot }, h) := by
  obtain ⟨slot, h, hdraw, hslot⟩ := hsound slots g hfits.slots_pos
  have hfirst : Generator.below (SlotSelection.fresh c.params (.int (i + 1)) slots i (.int 0)
      (.int 0) .ofModule).table.slots g = (.ok slot, h) := hdraw
  refine ⟨slot, h, hslot.1, hslot.2, ?_⟩
  simp only [scheduler, hs, SlotSelection.create_of_fits hfits, hfirst, bind, Except.bind]
  rfl

theorem exists_unused (hsound : Generator.Sound ρ) (hs : c.slots = .int slots) (hpos : 0 < slots)
    (hle : (slots : Int) ≤ Datum.stepLimit) (hparams : c.params.Anneals) (i : Nat) (g : ρ) :
    ∃ mac a h, c.device i = .ok mac ∧ c.scheduler i g = .ok (a, h) ∧ Unused slots i mac a := by
  obtain ⟨slot, h, hnonneg, hlt, hscheduler⟩ := scheduler_eq hsound hs (fits_of_le hpos hle) i g
  refine ⟨_, _, h, device_eq hs hle i, hscheduler, ?_⟩
  exact {
    slots_eq := rfl
    channels_eq := rfl
    owned_eq := rfl
    sequence_eq := rfl
    sink_eq := rfl
    name_eq := rfl
    mac_eq := rfl
    offset_eq := rfl
    table_slots := rfl
    table_channels := rfl
    scores_length := List.length_replicate
    anneals := hparams
    failures_eq := rfl
    tuned := {
      macs_eq := rfl
      capacity_eq := rfl
      distinct_links := Links.distinct_empty
      distinct_last := Links.distinct_empty
      channel?_eq := rfl
      covers := List.forall_mem_nil _ }
    link := nofun
    action_nonneg := hnonneg
    action_lt := hlt
    queue_eq := rfl
    asn_eq := rfl
    attempts_eq := rfl
    successes_eq := rfl
    delay_eq := rfl }

theorem populate_eq_ok (hsound : Generator.Sound ρ) (hs : c.slots = .int slots) (hpos : 0 < slots)
    (hle : (slots : Int) ≤ Datum.stepLimit) (hparams : c.params.Anneals)
    {seeded : Nat → Except Fault ρ} (count i : Nat)
    (hseeded : ∀ j < count, ∃ g, seeded (i + j) = .ok g) :
    ∃ macs schedulers, c.populate seeded count i = .ok (macs, schedulers) ∧
      ∀ j < count, ∃ mac a g, macs[j]? = some mac ∧ schedulers[j]? = some (a, g) ∧
        Unused slots (i + j) mac a := by
  induction count generalizing i with
  | zero => exact ⟨[], [], rfl, fun j hj => absurd hj (Nat.not_lt_zero j)⟩
  | succ count ih =>
    obtain ⟨g, hg⟩ := hseeded 0 (Nat.succ_pos count)
    obtain ⟨mac, a, h, hdevice, hscheduler, hunused⟩ := exists_unused hsound hs hpos hle hparams i g
    obtain ⟨macs, schedulers, hpopulate, hall⟩ := ih (i + 1) fun j hj => by
      obtain ⟨g, hg⟩ := hseeded (j + 1) (Nat.succ_lt_succ hj)
      exact ⟨g, by rwa [Nat.add_right_comm, Nat.add_assoc]⟩
    refine ⟨mac :: macs, (a, h) :: schedulers, ?_, ?_⟩
    · rw [Nat.add_zero] at hg
      simp only [populate, hdevice, hg, hscheduler, hpopulate, bind, Except.bind]
      rfl
    · intro j hj
      cases j with
      | zero => exact ⟨mac, a, h, rfl, rfl, hunused⟩
      | succ j =>
        have hrest := hall j (Nat.lt_of_succ_lt_succ hj)
        rwa [Nat.add_right_comm, Nat.add_assoc] at hrest

theorem prepared_eq_ok (hsound : Generator.Sound ρ) (hs : c.slots = .int slots) (hpos : 0 < slots)
    (hle : (slots : Int) ≤ Datum.stepLimit) (hparams : c.params.Anneals) (source : ρ)
    {seeded : Nat → Except Fault ρ} (hseeded : ∀ i < c.senders, ∃ g, seeded i = .ok g) :
    ∃ s, c.prepared source seeded = .ok (c.wired, s) ∧
      AllInOrder c.senders slots 0 (fun _ => .resting) ([], [], s) := by
  obtain ⟨macs, schedulers, hpopulate, hall⟩ :=
    populate_eq_ok hsound hs hpos hle hparams c.senders 0 fun j hj => by
      rw [Nat.zero_add]
      exact hseeded j hj
  refine ⟨⟨macs.toArray, schedulers.toArray, source, .empty, []⟩, ?_, ?_⟩
  · simp only [prepared, network_eq, build, hpopulate, bind, Except.bind]
    rfl
  · intro i hi
    obtain ⟨mac, a, g, hmac, hscheduler, hunused⟩ := hall i hi
    rw [Nat.zero_add] at hunused
    exact hunused.inOrder (List.getElem?_toArray.trans hmac)
      (List.getElem?_toArray.trans hscheduler) rfl

/-- Without the memory for the slots of a device there is no scenario. -/
theorem prepared_eq_error (hs : c.slots = .int slots) (hlt : Datum.stepLimit < slots)
    (hsenders : 0 < c.senders) (source : ρ) (seeded : Nat → Except Fault ρ) :
    c.prepared source seeded = .error .outOfMemory := by
  obtain ⟨count, hcount⟩ := Nat.exists_eq_add_of_lt hsenders
  have hpopulate : c.populate seeded c.senders 0 = .error .outOfMemory := by
    rw [hcount, Nat.zero_add]
    simp only [populate, device_eq_error hs hlt, bind, Except.bind]
  simp only [prepared, network_eq, build, hpopulate, bind, Except.bind]

end SlotSelectionScenario
end TschLearning
