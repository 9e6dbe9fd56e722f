import TschLearning.Proofs.Scenario.DeployModes
import TschLearning.Proofs.Scenario.Solo

/-! The devices of a channel-hopping scenario in their places. Every slot of the slotframe has one
owner, whether there are fewer devices than slots or more; and what keeps a scenario from being
prepared does not depend on the number of devices. -/

namespace TschLearning.ChannelHoppingScenario

open TschLearning.Action ChannelHopping Pan

variable {ρ α : Type} {c : ChannelHoppingScenario α} {slots channels : Nat}

/-- A device owns the slots of its place. -/
theorem seated_of_device (hs : c.slots = .int slots) {i : Nat} {m : Mac Unit}
    (h : c.device i = .ok m) : m.Seated slots c.nodes i := by
  by_cases hsteps : (slots : Int) ≤ Datum.stepLimit
  · have howned : ∀ s ∈ (List.range slots).filter fun s => s % c.nodes = i, s < slots :=
      fun s hmem => List.mem_range.1 (List.mem_filter.1 hmem).1
    simp only [device, Mac.create, ownedBy, hs, Datum.steps_int_of_le hsteps,
      checkIndexBelow_ofNats howned, bind, Except.bind] at h
    cases h
    refine ⟨rfl, fun t ht => ?_⟩
    rw [List.contains_eq_mem]
    refine decide_eq_decide.2 ?_
    rw [Mac.mem_foldr_insertOwned, List.mem_filter, List.mem_range, decide_eq_true_iff]
    exact and_iff_right ht
  · rw [device, hs, Datum.steps_int_of_lt (Int.not_le.1 hsteps)] at h
    cases h

theorem seated_of_devices (hs : c.slots = .int slots) {count i j : Nat} {macs : List (Mac Unit)}
    (h : c.devices count i = .ok macs) {m : Mac Unit} (hm : macs[j]? = some m) :
    m.Seated slots c.nodes (i + j) := by
  induction count generalizing i j macs with
  | zero =>
    cases h
    cases hm
  | succ count ih =>
    simp only [devices, bind, Except.bind] at h
    split at h
    · cases h
    · rename_i mac hmac
      split at h
      · cases h
      · rename_i rest hrest
        cases h
        cases j with
        | zero =>
          cases hm
          exact seated_of_device hs hmac
        | succ j =>
          have hplace := ih hrest hm
          rwa [Nat.add_assoc, Nat.add_comm 1 j] at hplace

variable [Arith α] [Generator ρ α]

def withNodes (c : ChannelHoppingScenario α) (nodes : Nat) : ChannelHoppingScenario α :=
  { c with nodes }

/-- A scenario that fits into memory comes to where the first configuration is drawn. -/
theorem prepared_of_sized (hs : c.slots = .int slots) (hc : c.channels = .int channels)
    (hsized : c.Sized slots channels) (mode : DeployMode) (sources : Sources ρ) :
    ∃ macs, macs.length = c.nodes ∧ (∀ m ∈ macs, Plain slots channels m) ∧
      (∀ i (m : Mac Unit), macs[i]? = some m → m.Seated slots c.nodes i) ∧
      c.prepared mode sources =
        match Pan.begin (c.assembled mode macs
          (fresh c.params (.text "PAN") .ofModule slots channels) sources) with
        | .ok _ p => .ok (c.wired, p)
        | .error f _ => .error f := by
  have hsame : Datum.same (.int c.interference.channels) c.channels = true := by
    rw [hc, Datum.same_int]
    exact decide_eq_true (congrArg Int.ofNat hsized.interference_eq)
  have hnet := (network_eq c mode).trans (if_pos hsame)
  obtain ⟨macs, hmacs⟩ := devices_of_sized hs hsized.steps_le c.nodes 0
  have hcreate := create_of_fits hsized.fits c.params (.text "PAN") .ofModule
  rw [← hs, ← hc] at hcreate
  obtain ⟨hlen, hplain⟩ := plain_of_devices hs hc hmacs
  refine ⟨macs, hlen, hplain, fun i m hm => ?_, ?_⟩
  · have hplace := seated_of_devices hs hmacs hm
    rwa [Nat.zero_add] at hplace
  · simp only [prepared, hnet, build, devices_mode, hmacs, hcreate, bind, Except.bind]
    rfl

/-- A scenario that does not fit into memory, or has no failure probability for every channel,
cannot be prepared for any number of devices. -/
theorem prepared_of_not_sized (hs : c.slots = .int slots) (hc : c.channels = .int channels)
    (hsized : ¬c.Sized slots channels) :
    ∃ f, ∀ nodes, 0 < nodes → ∀ mode (sources : Sources ρ),
      (c.withNodes nodes).prepared mode sources = .error f := by
  have hsame : Datum.same (.int c.interference.channels) c.channels
      = decide (c.interference.channels = channels) := by
    rw [hc, Datum.same_int]
    exact decide_eq_decide.2 Int.natCast_inj
  by_cases hint : c.interference.channels = channels
  · rw [decide_eq_true hint] at hsame
    have hnet := fun nodes mode => (network_eq (c.withNodes nodes) mode).trans (if_pos hsame)
    by_cases hsteps : (slots : Int) ≤ Datum.stepLimit
    · have hnofit : ¬Fits slots channels := fun hfits => hsized ⟨hfits, hsteps, hint⟩
      obtain ⟨f, hcreate⟩ : ∃ f, ChannelHopping.create c.params (.text "PAN") .ofModule c.slots
          c.channels = .error f := by
        cases hcreate : ChannelHopping.create c.params (.text "PAN") .ofModule c.slots
            c.channels with
        | error f => exact ⟨f, rfl⟩
        | ok scheduler =>
          rw [hs, hc] at hcreate
          exact absurd (create_eq_ok hcreate).1 hnofit
      refine ⟨f, fun nodes _ mode sources => ?_⟩
      obtain ⟨macs, hmacs⟩ := devices_of_sized (c := c.withNodes nodes) hs hsteps nodes 0
      have hcreate' : ChannelHopping.create (c.withNodes nodes).params (.text "PAN") .ofModule
          (c.withNodes nodes).slots (c.withNodes nodes).channels = .error f := hcreate
      have hmacs' : (c.withNodes nodes).devices (c.withNodes nodes).nodes 0 = .ok macs := hmacs
      simp only [prepared, hnet, build, devices_mode, hmacs', hcreate', bind, Except.bind]
    · refine ⟨.outOfMemory, fun nodes hpos mode sources => ?_⟩
      obtain ⟨n, rfl⟩ := Nat.exists_eq_add_one.2 hpos
      have hfail : (c.withNodes (n + 1)).devices (c.withNodes (n + 1)).nodes 0
          = .error .outOfMemory := by
        simp only [withNodes, devices, device, hs, Datum.steps_int_of_lt (Int.not_le.1 hsteps), bind,
          Except.bind]
      simp only [prepared, hnet, build, devices_mode, hfail, bind, Except.bind]
  · rw [decide_eq_false hint] at hsame
    refine ⟨.interferenceCoverage c.interference.channels c.channels,
      fun nodes _ mode sources => ?_⟩
    have hnet := (network_eq (c.withNodes nodes) mode).trans
      (if_neg (ne_true_of_eq_false hsame))
    simp only [prepared, hnet, bind, Except.bind]
    rfl

omit [Arith α] [Generator ρ α] in
/-- Before the first configuration is drawn: the devices in their places, and what is there without
them. -/
theorem mirrors_assembled {macs : List (Mac Unit)} (hlen : macs.length = c.nodes)
    (hplain : ∀ m ∈ macs, Plain slots channels m)
    (hseated : ∀ i (m : Mac Unit), macs[i]? = some m → m.Seated slots c.nodes i)
    (mode : DeployMode) (scheduler : ChannelHopping α) (sources : Sources ρ) :
    Mirrors slots channels c.nodes none (c.assembled mode macs scheduler sources)
      ⟨scheduler, sources, .empty, .empty⟩ where
  stands := stands_assembled hlen hplain mode
  unlimited _ i hi m hm := by
    obtain ⟨m', hm', hp⟩ : ∃ m', (c.assembled mode macs scheduler sources).macs[i]? = some m' ∧
        Plain slots channels m' := device_assembled hlen hplain mode hi
    rw [hm] at hm'
    cases hm'
    exact hp.capacity_eq
  failures_eq := by cases mode <;> rfl
  seated i hi := by
    rw [← hlen] at hi
    have hdevice : (c.assembled mode macs scheduler sources).deviceAt i = macs[i] := by
      show (macs.toArray[i]?).getD default = _
      rw [List.getElem?_toArray, List.getElem?_eq_getElem hi, Option.getD_some]
    rw [hdevice]
    exact hseated i _ (List.getElem?_eq_getElem hi)
  solo_eq := rfl
  attempts_eq := rfl
  successes_eq := rfl

end TschLearning.ChannelHoppingScenario
