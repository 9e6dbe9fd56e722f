import TschLearning.Proofs.Scenario.Runs

/-! Channel-hopping scenarios up to their first slot. The kind of the deployer makes no difference
there but for the deployer itself. -/

namespace TschLearning

open TschLearning.Action

namespace ChannelHopping

variable {α : Type}

theorem create_of_fits [Zero α] {slots channels : Nat} (h : Fits slots channels)
    (params : Parameters α) (name : Datum) (voice : Voice) :
    create params name voice (.int slots) (.int channels)
      = .ok (fresh params name voice slots channels) := by
  simp only [create, h.create_eq_ok, create_activation, bind, Except.bind]
  rfl

end ChannelHopping

/-- Two generators that are in step draw the same row of channels. -/
theorem Draws.twin_row {σ τ α : Type} {d : Draws σ α} {e : Draws τ α} {R : σ → τ → Prop}
    {channels : Nat}
    (hbelow : ∀ {s t}, R s t → Twin (d.below channels) (e.below channels) s t
      fun i j s' t' => (i = j ∧ 0 ≤ i ∧ i < channels) ∧ R s' t')
    (hlt : channels < addressable) (count : Nat) {s : σ} {t : τ} (hs : R s t) :
    Twin (d.row channels count) (e.row channels count) s t
      fun a b s' t' => (a = b ∧ Pan.InRange count channels a) ∧ R s' t' := by
  have heach : Twin (d.each channels count) (e.each channels count) s t
      fun a b s' t' => (a = b ∧ Pan.InRange count channels a) ∧ R s' t' := by
    induction count generalizing s t with
    | zero => exact ⟨⟨rfl, rfl, fun i hi => absurd hi List.not_mem_nil⟩, hs⟩
    | succ count ih =>
      unfold Draws.each
      refine Twin.bind (hbelow hs) ?_
      rintro i _ s' t' ⟨⟨rfl, hi⟩, hs'⟩
      refine Twin.bind (ih hs') ?_
      rintro is _ s'' t'' ⟨⟨rfl, hlen, his⟩, hs''⟩
      refine ⟨⟨rfl, by rw [List.length_cons, hlen], ?_⟩, hs''⟩
      exact List.forall_mem_cons.2 ⟨hi, his⟩
  unfold Draws.row
  refine Twin.bind heach ?_
  rintro cs _ s' t' ⟨⟨rfl, hcs⟩, hs'⟩
  have hsigned : cs.all Word.isSigned = true := by
    refine List.all_eq_true.2 fun i hi => decide_eq_true ?_
    have hrange := hcs.2 i hi
    unfold addressable at hlt
    unfold Word.limit
    omega
  simp only [if_pos hsigned]
  exact ⟨⟨rfl, hcs⟩, hs'⟩

namespace Pan

open ChannelHopping

variable {ρ α : Type} [Generator ρ α] {slots channels : Nat} {ids : List Nat}
  {x : Option (List Int)} {p q : Pan ρ α}

/-- The first configuration, drawn in both networks. -/
theorem Linked.twin_begin (hsound : Generator.Sound ρ) (hfits : Fits slots channels)
    (h : Linked slots channels ids x p q) (hs : p.scheduler.table.slots = slots)
    (hc : p.scheduler.table.channels = channels) :
    Twin (begin (ρ := ρ) (α := α)) begin p q fun _ _ p' q' =>
      ∃ cs, InRange slots channels cs ∧ p'.scheduler = p.scheduler.startingWith cs ∧
        Linked slots channels ids x p' q' := by
  have hrow := Draws.twin_row
    (R := fun p' q' => p'.scheduler = p.scheduler ∧ Linked slots channels ids x p' q')
    (fun {p' q'} hlinked => by
      refine Twin.mono (hlinked.2.twin_below hsound hfits.channels_pos) ?_
      rintro i _ _ _ ⟨hi, hscheduler, hnext⟩
      exact ⟨hi, hscheduler.trans hlinked.1, hnext⟩)
    hfits.channels_lt slots ⟨rfl, h⟩
  show Twin (do
      let drawn ← needs.draws.row p.scheduler.table.channels p.scheduler.table.slots
      modify fun r : Pan ρ α => { r with scheduler := p.scheduler.startingWith drawn })
    (do
      let drawn ← needs.draws.row q.scheduler.table.channels q.scheduler.table.slots
      modify fun r : Pan ρ α => { r with scheduler := q.scheduler.startingWith drawn }) p q _
  rw [← h.scheduler_eq, hs, hc]
  refine Twin.bind hrow ?_
  rintro cs _ p' q' ⟨⟨rfl, hcs⟩, -, hnext⟩
  exact ⟨cs, hcs, rfl, hnext.reschedule _⟩

end Pan

namespace ChannelHoppingScenario

open ChannelHopping

variable {ρ α : Type} [Arith α]

/-- The scenario with a kind of deployer, before its first slot. -/
def prepared [Generator ρ α] (c : ChannelHoppingScenario α) (mode : DeployMode)
    (sources : Sources ρ) : Except Fault (Network Nat Unit α × Pan ρ α) := do
  let net ← { c with mode }.network
  let (net, p) ← { c with mode }.build net sources
  match Pan.begin p with
  | .ok _ p => return (net, p)
  | .error f _ => throw f

/-- A scenario that fits into memory, with a failure probability for every channel. -/
structure Sized (slots channels : Nat) (c : ChannelHoppingScenario α) : Prop where
  fits : Fits slots channels
  steps_le : (slots : Int) ≤ Datum.stepLimit
  interference_eq : c.interference.channels = channels

variable {c : ChannelHoppingScenario α} {slots channels : Nat}

/-- What is known of the devices of a scenario. -/
structure Plain (slots channels : Nat) (m : Mac Unit) : Prop where
  member : m.Member slots channels
  links_eq : m.links = .empty
  sequence_eq : m.sequence = none
  capacity_eq : m.capacity = none

omit [Arith α] in
theorem plain_of_device (hs : c.slots = .int slots) (hc : c.channels = .int channels) {i : Nat}
    {m : Mac Unit} (h : c.device i = .ok m) : Plain slots channels m := by
  simp only [device, Mac.create, bind, Except.bind] at h
  split at h
  · cases h
  · split at h
    · cases h
    · rename_i mac hmac
      split at hmac
      · cases hmac
      · cases hmac
        cases h
        exact {
          member := {
            slots_eq := hs
            channels_eq := hc
            attached := rfl
            named := trivial
            sized := fun d hd => by cases hd }
          links_eq := rfl
          sequence_eq := rfl
          capacity_eq := rfl }

omit [Arith α] in
theorem plain_of_devices (hs : c.slots = .int slots) (hc : c.channels = .int channels)
    {count i : Nat} {macs : List (Mac Unit)} (h : c.devices count i = .ok macs) :
    macs.length = count ∧ ∀ m ∈ macs, Plain slots channels m := by
  induction count generalizing i macs with
  | zero =>
    cases h
    exact ⟨rfl, fun m hm => absurd hm List.not_mem_nil⟩
  | succ count ih =>
    simp only [devices, bind, Except.bind] at h
    split at h
    · cases h
    · rename_i mac hmac
      split at h
      · cases h
      · rename_i rest hrest
        cases h
        obtain ⟨hlen, hall⟩ := ih hrest
        refine ⟨by rw [List.length_cons, hlen], ?_⟩
        exact List.forall_mem_cons.2 ⟨plain_of_device hs hc hmac, hall⟩

theorem checkIndexBelow_ofNats {items : List Nat} (h : ∀ s ∈ items, s < slots) :
    (Datum.ofNats items).mapM
      (checkIndexBelow (possessive Mac.ownerLabel) "owned slot" (.int slots)) = .ok items := by
  induction items with
  | nil => rfl
  | cons s rest ih =>
    rw [List.forall_mem_cons] at h
    have hrest := ih h.2
    have hfirst : checkIndexBelow (possessive Mac.ownerLabel) "owned slot" (.int slots) (.int s)
        = .ok s := by
      rw [checkIndexBelow_int, checkIndex_int_of_lt _ _ (Int.natCast_nonneg s)
        (Int.ofNat_lt.2 h.1), Int.toNat_natCast]
    rw [Datum.ofNats] at hrest
    rw [Datum.ofNats, List.map_cons, List.mapM_cons, hfirst, hrest]
    rfl

omit [Arith α] in
theorem device_of_sized (hs : c.slots = .int slots) (hsteps : (slots : Int) ≤ Datum.stepLimit)
    (i : Nat) : ∃ m, c.device i = .ok m := by
  have howned : ∀ s ∈ (List.range slots).filter fun s => s % c.nodes = i, s < slots :=
    fun s hmem => List.mem_range.1 (List.mem_filter.1 hmem).1
  simp only [device, Mac.create, ownedBy, hs, Datum.steps_int_of_le hsteps,
    checkIndexBelow_ofNats howned, bind, Except.bind]
  exact ⟨_, rfl⟩

omit [Arith α] in
theorem devices_of_sized (hs : c.slots = .int slots) (hsteps : (slots : Int) ≤ Datum.stepLimit)
    (count i : Nat) : ∃ macs, c.devices count i = .ok macs := by
  induction count generalizing i with
  | zero => exact ⟨[], rfl⟩
  | succ count ih =>
    obtain ⟨m, hm⟩ := device_of_sized hs hsteps i
    obtain ⟨macs, hmacs⟩ := ih (i + 1)
    exact ⟨m :: macs, by simp only [devices, hm, hmacs, bind, Except.bind]; rfl⟩

omit [Arith α] in
theorem devices_mode (c : ChannelHoppingScenario α) (mode : DeployMode) (count i : Nat) :
    ({ c with mode } : ChannelHoppingScenario α).devices count i = c.devices count i := by
  induction count generalizing i with
  | zero => rfl
  | succ count ih =>
    unfold devices
    rw [ih]
    rfl

def wired (c : ChannelHoppingScenario α) : Network Nat Unit α where
  slots := c.slots
  channels := c.channels
  interference := c.interference
  slotDuration := .ok slotLength
  traffic := c.traffic
  macs := List.range c.nodes
  asn := 0
  started := true
  observers :=
    (Notifier.create (.text "transmission") (possessive Network.ownerLabel)).place ()
      (.number (.int 0))

def assembled (c : ChannelHoppingScenario α) (mode : DeployMode) (macs : List (Mac Unit))
    (scheduler : ChannelHopping α) (sources : Sources ρ) : Pan ρ α where
  macs := macs.toArray
  scheduler
  deployer := .create mode (List.range c.nodes)
  sources
  statistics := .empty
  notes := []

/-- A network can be made for the channels of its interference model only. -/
theorem network_eq (c : ChannelHoppingScenario α) (mode : DeployMode) :
    { c with mode }.network =
      if Datum.same (.int c.interference.channels) c.channels then
        .ok { c.wired with
          macs := []
          started := false
          observers := .create (.text "transmission") (possessive Network.ownerLabel) }
      else .error (.interferenceCoverage c.interference.channels c.channels) := by
  simp only [network, Network.create, bind, Except.bind, pure, Except.pure]
  cases Datum.same (.int c.interference.channels) c.channels <;> rfl

/-- Either preparations fail alike for deployers of all kinds, for want of memory or failure
probabilities, or they come to where the first configuration is drawn. -/
theorem prepared_cases [Generator ρ α] (hs : c.slots = .int slots) (hc : c.channels = .int channels)
    (sources : Sources ρ) :
    (∃ f, ¬c.Sized slots channels ∧ ∀ mode, c.prepared mode sources = .error f) ∨
    ∃ macs, macs.length = c.nodes ∧ (∀ m ∈ macs, Plain slots channels m) ∧
      Fits slots channels ∧ c.interference.channels = channels ∧
      ∀ mode, c.prepared mode sources =
        match Pan.begin (c.assembled mode macs
          (fresh c.params (.text "PAN") .ofModule slots channels) sources) with
        | .ok _ p => .ok (c.wired, p)
        | .error f _ => .error f := by
  have hsame : Datum.same (.int c.interference.channels) c.channels
      = decide (c.interference.channels = channels) := by
    rw [hc, Datum.same_int]
    exact decide_eq_decide.2 Int.natCast_inj
  by_cases hint : c.interference.channels = channels
  · rw [decide_eq_true hint] at hsame
    have hnet := fun mode => (network_eq c mode).trans (if_pos hsame)
    cases hmacs : c.devices c.nodes 0 with
    | error f =>
      refine .inl ⟨f, fun hsized => ?_, fun mode => ?_⟩
      · obtain ⟨macs, hok⟩ := devices_of_sized hs hsized.steps_le c.nodes 0
        rw [hmacs] at hok
        cases hok
      · simp only [prepared, hnet, build, devices_mode, hmacs, bind, Except.bind]
    | ok macs =>
      obtain ⟨hlen, hall⟩ := plain_of_devices hs hc hmacs
      cases hcreate : create c.params (.text "PAN") .ofModule c.slots c.channels with
      | error f =>
        refine .inl ⟨f, fun hsized => ?_, fun mode => ?_⟩
        · have hok := create_of_fits hsized.fits c.params (.text "PAN") .ofModule
          rw [← hs, ← hc, hcreate] at hok
          cases hok
        · simp only [prepared, hnet, build, devices_mode, hmacs, hcreate, bind, Except.bind]
      | ok scheduler =>
        rw [hs, hc] at hcreate
        obtain ⟨hfits, rfl⟩ := create_eq_ok hcreate
        refine .inr ⟨macs, hlen, hall, hfits, hint, fun mode => ?_⟩
        rw [← hs, ← hc] at hcreate
        simp only [prepared, hnet, build, devices_mode, hmacs, hcreate, bind, Except.bind]
        rfl
  · rw [decide_eq_false hint] at hsame
    refine .inl ⟨.interferenceCoverage c.interference.channels c.channels,
      fun hsized => hint hsized.interference_eq, fun mode => ?_⟩
    have hnet := (network_eq c mode).trans (if_neg (by rw [hsame]; exact Bool.false_ne_true))
    simp only [prepared, hnet, bind, Except.bind]

end ChannelHoppingScenario
end TschLearning
