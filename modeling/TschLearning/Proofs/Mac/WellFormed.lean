import TschLearning.Proofs.Deployer.Sequences
import TschLearning.Proofs.Mac.Admission

/-! MAC layers whose schedule lies within their slotframe, and how they change while they are
edited through their interface. The calls keep the schedule within the slotframe, and all they do
to a queue is to put frames behind those that wait. -/

namespace TschLearning.Mac

variable {κ : Type} {slots channels : Nat} {m m' m'' : Mac κ}

/-- The links and the hopping sequence lie within the slotframe. -/
structure WellFormed (slots channels : Nat) (m : Mac κ) : Prop where
  slots_eq : m.slots = .int slots
  channels_eq : m.channels = .int channels
  links_lt : ∀ slot c, m.links.channel? slot = some c → 0 ≤ c ∧ c < channels
  sequence_mem : ∀ cs, m.sequence = some cs → InSlotframe slots channels cs

theorem WellFormed.channelIn_lt (h : m.WellFormed slots channels) {slot c : Int}
    (hc : m.channelIn slot = some c) : 0 ≤ c ∧ c < channels := by
  unfold channelIn at hc
  split at hc
  · cases hc
  · cases hlink : m.links.channel? slot with
    | some c' =>
      simp only [hlink, Option.some.injEq] at hc
      exact hc ▸ h.links_lt slot c' hlink
    | none =>
      simp only [hlink] at hc
      obtain ⟨cs, hcs, hget⟩ := Option.bind_eq_some_iff.1 hc
      exact (h.sequence_mem cs hcs).2 c (List.mem_of_getElem? hget)

/-! ### Calls of the interface -/

theorem checkChannel_lt (hm : m.channels = .int channels) {d : Datum} {c : Nat}
    (h : m.checkChannel d = .ok c) : c < channels := by
  obtain ⟨-, hbounds⟩ := checkIndexBelow_eq_ok h
  rw [hm, Datum.bounds_int] at hbounds
  exact Int.ofNat_lt.1 hbounds.2

/-- A sequence that passes its check has a channel for every slot. -/
theorem checkSequence_eq_ok {items : List Datum} {cs : List Int}
    (h : m.checkSequence items = .ok cs) :
    Datum.same (.int cs.length) m.slots = true ∧ ∀ c ∈ cs, m.channels.Bounds c := by
  unfold checkSequence at h
  cases hlen : Datum.same (.int items.length) m.slots with
  | false =>
    rw [hlen] at h
    cases h
  | true =>
    rw [hlen] at h
    obtain ⟨checked, hchecked, h⟩ := bind_eq_ok.1 h
    cases h
    obtain ⟨hcount, hall⟩ := mapM_eq_ok hchecked
    refine ⟨by rw [List.length_map, hcount, hlen], fun c hmem => ?_⟩
    obtain ⟨n, hn, rfl⟩ := List.mem_map.1 hmem
    obtain ⟨d, -, hd⟩ := hall n hn
    exact (checkIndexBelow_eq_ok hd).2

theorem checkSequence_inSlotframe (hs : m.slots = .int slots) (hc : m.channels = .int channels)
    {items : List Datum} {cs : List Int} (h : m.checkSequence items = .ok cs) :
    InSlotframe slots channels cs := by
  obtain ⟨hlen, hall⟩ := checkSequence_eq_ok h
  rw [hs, Datum.same_int, decide_eq_true_iff] at hlen
  simp only [hc, Datum.bounds_int] at hall
  exact ⟨hlen, hall⟩

theorem setSequence_eq {items : List Datum} (h : m.setSequence items = .ok m') :
    ∃ cs, m.checkSequence items = .ok cs ∧ m' = m.withSequence cs := by
  obtain ⟨cs, hcs, h⟩ := bind_eq_ok.1 h
  cases h
  exact ⟨cs, hcs, rfl⟩

/-- Calls of the interface turn one MAC layer into another; `frames` are those that are requested
meanwhile. A call that fails changes nothing. -/
inductive Edited (m : Mac κ) : List Frame → Mac κ → Prop where
  | refl : Edited m [] m
  | deleteLink {frames m' m'' slot remark} (h : Edited m frames m')
      (he : m'.deleteLink slot = .ok (remark, m'')) : Edited m frames m''
  | addLink {frames m' m'' slot channel} (h : Edited m frames m')
      (he : m'.addLink slot channel = .ok m'') : Edited m frames m''
  | setSequence {frames m' m'' channels} (h : Edited m frames m')
      (he : m'.setSequence channels = .ok m'') : Edited m frames m''
  | request {frames m'} (destination size : Datum) (h : Edited m frames m') :
      Edited m (frames ++ [⟨destination, size, m'.asn⟩]) (m'.request destination size)

namespace Edited

variable {frames frames' : List Frame}

theorem trans (h : Edited m frames m') (h' : Edited m' frames' m'') :
    Edited m (frames ++ frames') m'' := by
  induction h' with
  | refl => rwa [List.append_nil]
  | deleteLink _ he ih => exact ih.deleteLink he
  | addLink _ he ih => exact ih.addLink he
  | setSequence _ he ih => exact ih.setSequence he
  | request destination size _ ih =>
    rw [← List.append_assoc]
    exact ih.request destination size

/-- The calls change the schedule, and they put the frames that are requested into the queue. -/
theorem exists_eq (h : Edited m frames m') :
    ∃ links sequence, m' = { m with links, sequence, queue := m.queue ++ frames } := by
  induction h with
  | refl => exact ⟨m.links, m.sequence, by rw [List.append_nil]⟩
  | deleteLink _ he ih =>
    obtain ⟨s, rfl, -⟩ := deleteLink_eq he
    obtain ⟨links, sequence, rfl⟩ := ih
    exact ⟨_, sequence, rfl⟩
  | addLink _ he ih =>
    obtain ⟨s, c, -, -, -, rfl⟩ := addLink_eq he
    obtain ⟨links, sequence, rfl⟩ := ih
    exact ⟨_, sequence, rfl⟩
  | setSequence _ he ih =>
    obtain ⟨cs, -, rfl⟩ := setSequence_eq he
    obtain ⟨links, sequence, rfl⟩ := ih
    exact ⟨links, _, rfl⟩
  | request destination size _ ih =>
    obtain ⟨links, sequence, rfl⟩ := ih
    refine ⟨links, sequence, ?_⟩
    simp only [Mac.request, List.append_assoc]

theorem queue_eq (h : Edited m frames m') : m'.queue = m.queue ++ frames := by
  obtain ⟨links, sequence, rfl⟩ := h.exists_eq
  rfl

theorem wellFormed (h : Edited m frames m') (hm : m.WellFormed slots channels) :
    m'.WellFormed slots channels := by
  induction h with
  | refl => exact hm
  | deleteLink _ he ih =>
    obtain ⟨s, rfl, -⟩ := deleteLink_eq he
    refine { ih with links_lt := fun slot c hc => ?_ }
    rw [links_withLinks, Links.channel?_erase] at hc
    split at hc
    · cases hc
    · exact ih.links_lt slot c hc
  | addLink _ he ih =>
    obtain ⟨s, c, -, hchannel, -, rfl⟩ := addLink_eq he
    refine { ih with links_lt := fun slot c' hc => ?_ }
    rw [links_withLinks, Links.channel?_insert] at hc
    split at hc
    · obtain rfl := Option.some.inj hc
      exact ⟨Int.natCast_nonneg c, Int.ofNat_lt.2 (checkChannel_lt ih.channels_eq hchannel)⟩
    · exact ih.links_lt slot c' hc
  | setSequence _ he ih =>
    obtain ⟨cs, hcs, rfl⟩ := setSequence_eq he
    refine { ih with sequence_mem := fun cs' hcs' => ?_ }
    obtain rfl := Option.some.inj hcs'
    exact checkSequence_inSlotframe ih.slots_eq ih.channels_eq hcs
  | request destination size _ ih => exact { ih with }

end Edited
end TschLearning.Mac
