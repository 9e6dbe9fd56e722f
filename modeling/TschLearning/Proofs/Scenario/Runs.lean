import TschLearning.Proofs.Scenario.Tied

/-! Runs of a network whose devices share one channel scheduler, from its first slot on. -/

namespace TschLearning

theorem Mac.Holds.eq_empty {κ : Type} {mode : DeployMode} {m : Mac κ} (h : m.Holds mode none) :
    m.links = .empty ∧ m.sequence = none := by
  cases mode with
  | hoppingSequence => exact h
  | links =>
    have hentries : m.links.entries = [] := List.perm_nil.1 h.1
    exact ⟨congrArg Links.mk hentries, h.2⟩

theorem Mac.holds_none {κ : Type} {mode : DeployMode} {m : Mac κ} (hl : m.links = .empty)
    (hs : m.sequence = none) : m.Holds mode none := by
  cases mode with
  | hoppingSequence => exact ⟨hl, hs⟩
  | links => exact ⟨by rw [hl]; exact List.Perm.refl _, hs⟩

theorem Deployer.macs_create {μ : Type} (mode : DeployMode) (ids : List μ) :
    (Deployer.create mode ids).macs = ids := by cases mode <;> rfl

namespace Pan

open TschLearning.Action ChannelHopping

variable {ρ α : Type} [Arith α]

/-- A network before its first slot: distinct devices without a schedule, attached to a new
scheduler whose deployer covers them. Their slots, queues and capacities may be any. -/
structure Starts (mode : DeployMode) (params : Parameters α) (slots channels : Nat)
    (net : Network Nat Unit α) (p : Pan ρ α) : Prop where
  slots_eq : net.slots = .int slots
  interference_eq : net.interference.channels = channels
  traffic_ok : ∃ q, net.traffic = .ok q
  asn_eq : net.asn = 0
  nodup : net.macs.Nodup
  device : ∀ i ∈ net.macs, ∃ m, p.macs[i]? = some m ∧ m.Member slots channels ∧
    m.links = .empty ∧ m.sequence = none
  deployer : ∃ ids, ids.Perm net.macs ∧ p.deployer = .create mode ids
  scheduler : ∃ name voice c cs,
    create params name voice (.int slots) (.int channels) = .ok c ∧
      InRange slots channels cs ∧ p.scheduler = c.startingWith cs

variable {mode : DeployMode} {params : Parameters α} {slots channels : Nat}
  {net : Network Nat Unit α} {p q : Pan ρ α}

omit [Arith α] in
/-- Devices without a schedule, and a deployer that has deployed nothing. -/
theorem stands_create {ids ids' : List Nat} (hperm : ids'.Perm ids)
    (hd : p.deployer = .create mode ids')
    (hdevice : ∀ i ∈ ids, ∃ m, p.macs[i]? = some m ∧ m.Member slots channels ∧
      m.links = .empty ∧ m.sequence = none) : Stands slots channels ids none p where
  covered := by
    rw [hd, Deployer.macs_create]
    exact hperm
  last_eq d he := by
    rw [hd] at he
    cases mode <;> cases he
    rfl
  inRange _ he := by cases he
  device i hi := by
    obtain ⟨m, hm, hmember, hl, hs⟩ := hdevice i hi
    exact ⟨m, hm, hmember, Mac.holds_none hl hs⟩
  roomy d he i hi m hm := by
    rw [hd] at he
    cases mode <;> cases he
    exact m.hasRoom_empty

theorem Starts.stands (h : Starts mode params slots channels net p) :
    Stands slots channels net.macs none p := by
  obtain ⟨ids, hperm, hd⟩ := h.deployer
  exact stands_create hperm hd h.device

theorem Starts.fits (h : Starts mode params slots channels net p) : Fits slots channels := by
  obtain ⟨_, _, _, _, hcreate, -⟩ := h.scheduler
  exact (create_eq_ok hcreate).1

theorem Starts.regular (h : Starts mode params slots channels net p) :
    net.Regular slots channels where
  slots_pos := h.fits.slots_pos
  channels_lt := h.fits.channels_lt
  slots_eq := h.slots_eq
  interference_eq := h.interference_eq
  traffic_ok := h.traffic_ok

theorem Starts.chronicle (h : Starts mode params slots channels net p) :
    Chronicle (ρ := ρ) params slots channels net.macs ⟨planOf none, net.asn, false⟩ none []
      p.scheduler := by
  obtain ⟨name, voice, c, cs, hcreate, hcs, hp⟩ := h.scheduler
  obtain ⟨hfits, rfl⟩ := create_eq_ok hcreate
  rw [hp, h.asn_eq]
  exact chronicle_start hfits hcs _

theorem Starts.tied (h : Starts mode params slots channels net p) :
    TiedTo params slots channels net.macs ⟨planOf none, net.asn, false⟩ ([], p) ([], p) := by
  have hlinked : Linked slots channels net.macs none p p := {
    left := h.stands
    right := h.stands
    bareAt_eq := fun _ _ => rfl
    remainder_eq := rfl
    answers := .inl rfl }
  exact ⟨none, rfl, hlinked, h.chronicle, rfl⟩

/-- Either nothing was accepted so far, the devices have no schedule and nobody has transmitted,
or the devices have exactly the configuration of their scheduler, which is one for all slots. -/
def InAccord (slots : Nat) (ids : List Nat) (trace : List (Event ρ α)) (p : Pan ρ α) : Prop :=
  (p.scheduler.deployed = false ∧ (∀ e ∈ trace, ¬e.IsOutcome) ∧
    ∀ i ∈ ids, ∃ m, p.macs[i]? = some m ∧ m.links = .empty ∧ m.sequence = none) ∨
  (p.scheduler.deployed = true ∧ ∃ cs, p.scheduler.configuration = Datum.ofInts cs ∧
    cs.length = slots ∧
    ∀ i ∈ ids, ∃ m, p.macs[i]? = some m ∧ m.Holds p.deployer.mode (some cs))

theorem Tied.inAccord {ids : List Nat} {ph : Phase} {x : Option (List Int)}
    {s t : List (Event ρ α) × Pan ρ α} (h : Tied params slots channels ids ph x s t) :
    InAccord slots ids s.1 s.2 := by
  cases x with
  | none =>
    refine .inl ⟨h.chronicle.deployed_eq, fun e he ho => ?_, fun i hi => ?_⟩
    · have hsome := (h.chronicle.outcomes e he ho).1
      cases hsome
    · obtain ⟨m, hm, -, hholds⟩ := h.linked.left.device i hi
      exact ⟨m, hm, hholds.eq_empty⟩
  | some cs =>
    refine .inr ⟨h.chronicle.deployed_eq, cs, h.chronicle.configuration_eq rfl,
      (h.linked.left.inRange cs rfl).1, fun i hi => ?_⟩
    obtain ⟨m, hm, -, hholds⟩ := h.linked.left.device i hi
    exact ⟨m, hm, hholds⟩

variable [Generator ρ α]

/-- However long a network runs, it does not fail. After every slot its devices have exactly the
configuration of their scheduler, if one was accepted at all; every outcome was on the channel
configured for its slot at that time; and every closing that learned rewarded each slot for
whether some transmission in it had success in the slotframe just closed. -/
theorem runSlots_inAccord (hsound : Generator.Sound ρ)
    (h : Starts mode params slots channels net p) (n : Nat) :
    ∃ (trace : List (Event ρ α)) (q : Pan ρ α),
      Network.runSlots surroundings n (net, p) = .ok () ({ net with asn := n }, q) ∧
      Network.runSlots surroundings.traced n (net, [], p)
        = .ok () ({ net with asn := n }, trace, q) ∧
      InAccord slots net.macs trace q ∧
      (∀ e ∈ trace, e.IsOutcome → ∃ asn, e.Planned slots asn) ∧
      ∀ earlier e, earlier ++ [e] <+: trace → e.Rewards params slots earlier := by
  obtain ⟨_, ⟨_, trace, q⟩, _, ⟨_, t⟩, hrun, -, rfl, rfl, plan, x, hx, htied⟩ :=
    twin_iff.1 (h.tied.twin_runSlots hsound h.nodup h.regular n)
  rw [h.asn_eq, Nat.zero_add] at hrun
  refine ⟨trace, q, Network.runSlots_of_traced surroundings hrun, hrun, htied.inAccord, ?_,
    htied.chronicle.rewards⟩
  intro e he ho
  obtain ⟨-, asn, _, hplanned, -⟩ := htied.chronicle.outcomes e he ho
  exact ⟨asn, hplanned⟩

def attached : Pan Permuted Float :=
  { cramped with
    macs := #[{ crampedMac 0 with sink := some () }, { crampedMac 1 with sink := some () }]
    scheduler := cramped.scheduler.startingWith [0, 2] }

def crampedNetwork : Network Nat Unit Float where
  slots := .int 2
  channels := .int 3
  interference := ⟨[0.1, 0.2, 0.3]⟩
  slotDuration := .ok slotLength
  traffic := .ok 1.0
  macs := [0, 1]
  asn := 0
  started := true
  observers := .create (.text "transmission") "network."

theorem starts_attached : Starts .links (.level 0 0) 2 3 crampedNetwork attached where
  slots_eq := rfl
  interference_eq := rfl
  traffic_ok := ⟨1.0, rfl⟩
  asn_eq := rfl
  nodup := by decide
  device i hi := by
    have hmember : ∀ i, Mac.Member 2 3 { crampedMac i with sink := some () } := fun i => {
      slots_eq := rfl
      channels_eq := rfl
      attached := rfl
      named := trivial
      sized := by
        intro d hd
        simp only [crampedMac] at hd
        split at hd
        · cases hd
        · cases hd
          rfl }
    have hi' : i = 0 ∨ i = 1 := by simpa [crampedNetwork] using hi
    rcases hi' with rfl | rfl
    · exact ⟨_, rfl, hmember 0, rfl, rfl⟩
    · exact ⟨_, rfl, hmember 1, rfl, rfl⟩
  deployer := ⟨[0, 1], List.Perm.refl _, rfl⟩
  scheduler := ⟨_, _, _, [0, 2], rfl, ⟨rfl, by decide⟩, rfl⟩

/-- Five slots with two devices, the second of which takes no link for every slot. -/
theorem runSlots_inAccord_cramped :
    ∃ (trace : List (Event Permuted Float)) (q : Pan Permuted Float),
      Network.runSlots surroundings 5 (crampedNetwork, attached)
        = .ok () ({ crampedNetwork with asn := 5 }, q) ∧
      InAccord 2 [0, 1] trace q := by
  obtain ⟨trace, q, hrun, -, haccord, -⟩ := runSlots_inAccord Permuted.sound starts_attached 5
  exact ⟨trace, q, hrun, haccord⟩

end Pan
end TschLearning
