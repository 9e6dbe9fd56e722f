import TschLearning.Proofs.Draws.Sound
import TschLearning.Proofs.Scenario.Chronicle

/-! Two networks in the same state apart from the form of their schedules. Either they are the same
network, or no deployment to either of them is ever refused; so they answer alike and stay so. -/

namespace TschLearning

namespace Pan

open TschLearning.Action ChannelHopping

variable {ρ α : Type} {slots channels : Nat} {ids : List Nat} {x : Option (List Int)}
  {p q p' q' : Pan ρ α}

/-! ### Standing devices -/

theorem Stands.congr (h : Stands slots channels ids x p) (hm : q.macs = p.macs)
    (hd : q.deployer = p.deployer) : Stands slots channels ids x q where
  covered := by rw [hd]; exact h.covered
  last_eq := by rw [hd]; exact h.last_eq
  inRange := h.inRange
  device := by rw [hd, hm]; exact h.device
  roomy := by rw [hd, hm]; exact h.roomy

theorem Unlimited.congr (h : p.Unlimited ids) (hmode : q.deployer.mode = p.deployer.mode)
    (hc : ∀ i ∈ ids, q.macs[i]?.map Mac.capacity = p.macs[i]?.map Mac.capacity) :
    q.Unlimited ids := by
  intro hlinks i hi m hm
  have hcapacity := hc i hi
  rw [hm, Option.map_some] at hcapacity
  obtain ⟨m', hm', he⟩ := Option.map_eq_some_iff.1 hcapacity.symm
  rw [← he]
  exact h (hmode ▸ hlinks) i hi m' hm'

theorem capacity_of_bareAt_eq {i : Nat} (h : q.bareAt i = p.bareAt i) :
    q.macs[i]?.map Mac.capacity = p.macs[i]?.map Mac.capacity := by
  have he := congrArg (Option.map Mac.capacity) h
  rwa [bareAt, bareAt, Option.map_map, Option.map_map] at he

/-- The network after a routine change of a device. -/
def routine {β : Type} (f : Mac Unit → β × Mac Unit) (i : Nat) (p : Pan ρ α) : Pan ρ α :=
  shelf.put i (f (p.deviceAt i)).2 p

theorem getElem?_routine {β : Type} {f : Mac Unit → β × Mac Unit} {i j : Nat} {m : Mac Unit}
    (hm : p.macs[j]? = some m) :
    (p.routine f i).macs[j]? = some (if j = i then (f m).2 else m) := by
  by_cases he : j = i
  · subst he
    rw [if_pos rfl]
    have hd : p.deviceAt j = m := by rw [deviceAt, hm, Option.getD_some]
    rw [← hd]
    exact lawful_shelf.get?_put_self (hd ▸ hm : p.macs[j]? = some m) _
  · rw [if_neg he]
    exact (lawful_shelf.get?_put_of_ne he _ p).trans hm

theorem Stands.routine (h : Stands slots channels ids x p) {β : Type} {f : Mac Unit → β × Mac Unit}
    (hf : Mac.Routine f) (i : Nat) : Stands slots channels ids x (p.routine f i) where
  covered := h.covered
  last_eq := h.last_eq
  inRange := h.inRange
  device j hj := by
    obtain ⟨m, hm, hmember, hholds⟩ := h.device j hj
    refine ⟨_, getElem?_routine hm, ?_⟩
    split
    · exact ⟨hf.member hmember, hf.holds hholds⟩
    · exact ⟨hmember, hholds⟩
  roomy d hd j hj m hm := by
    have hroom := h.roomy d hd j hj _ (h.deviceAt_eq hj)
    rw [getElem?_routine (h.deviceAt_eq hj)] at hm
    cases hm
    split
    · obtain ⟨g, hg⟩ := hf
      rw [hg]
      exact hroom
    · exact hroom

/-! ### Linked networks -/

/-- Two networks with the same configuration at their devices, alike apart from its form, and with
the same state beside their devices. -/
structure Linked (slots channels : Nat) (ids : List Nat) (x : Option (List Int)) (p q : Pan ρ α) :
    Prop where
  left : Stands slots channels ids x p
  right : Stands slots channels ids x q
  bareAt_eq : ∀ i ∈ ids, p.bareAt i = q.bareAt i
  remainder_eq : p.remainder = q.remainder
  answers : p = q ∨ (p.Unlimited ids ∧ q.Unlimited ids)

namespace Linked

theorem scheduler_eq (h : Linked slots channels ids x p q) : p.scheduler = q.scheduler :=
  congrArg Prod.fst h.remainder_eq

theorem sources_eq (h : Linked slots channels ids x p q) : p.sources = q.sources :=
  congrArg (fun r => r.2.1) h.remainder_eq

theorem statistics_eq (h : Linked slots channels ids x p q) : p.statistics = q.statistics :=
  congrArg (fun r => r.2.2) h.remainder_eq

theorem congr (h : Linked slots channels ids x p q)
    (hp : p'.macs = p.macs ∧ p'.deployer = p.deployer)
    (hq : q'.macs = q.macs ∧ q'.deployer = q.deployer) (hr : p'.remainder = q'.remainder)
    (hsame : p = q → p' = q') : Linked slots channels ids x p' q' where
  left := h.left.congr hp.1 hp.2
  right := h.right.congr hq.1 hq.2
  bareAt_eq i hi := by
    rw [bareAt, bareAt, hp.1, hq.1]
    exact h.bareAt_eq i hi
  remainder_eq := hr
  answers := h.answers.imp hsame fun ⟨hu, hu'⟩ =>
    ⟨hu.congr (by rw [hp.2]) (by simp [hp.1]), hu'.congr (by rw [hq.2]) (by simp [hq.1])⟩

theorem bare_deviceAt_eq (h : Linked slots channels ids x p q) {i : Nat} (hi : i ∈ ids) :
    (p.deviceAt i).bare = (q.deviceAt i).bare := by
  have he := h.bareAt_eq i hi
  rw [bareAt, bareAt, h.left.deviceAt_eq hi, h.right.deviceAt_eq hi] at he
  exact Option.some.inj he

theorem enter (h : Linked slots channels ids x p q) (n : Note) :
    Linked slots channels ids x (Journal.enter n p) (Journal.enter n q) :=
  h.congr ⟨rfl, rfl⟩ ⟨rfl, rfl⟩ h.remainder_eq (congrArg _)

theorem redraw (h : Linked slots channels ids x p q) (f : Sources ρ → Sources ρ) :
    Linked slots channels ids x { p with sources := f p.sources }
      { q with sources := f q.sources } := by
  refine h.congr ⟨rfl, rfl⟩ ⟨rfl, rfl⟩ ?_ (congrArg fun r : Pan ρ α =>
    { r with sources := f r.sources })
  show (p.scheduler, f p.sources, p.statistics) = (q.scheduler, f q.sources, q.statistics)
  rw [h.scheduler_eq, h.sources_eq, h.statistics_eq]

theorem reschedule (h : Linked slots channels ids x p q) (c : ChannelHopping α) :
    Linked slots channels ids x { p with scheduler := c } { q with scheduler := c } := by
  refine h.congr ⟨rfl, rfl⟩ ⟨rfl, rfl⟩ ?_ (congrArg fun r : Pan ρ α => { r with scheduler := c })
  show (c, p.sources, p.statistics) = (c, q.sources, q.statistics)
  rw [h.sources_eq, h.statistics_eq]

theorem recount (h : Linked slots channels ids x p q) (s : Statistics) :
    Linked slots channels ids x { p with statistics := s } { q with statistics := s } := by
  refine h.congr ⟨rfl, rfl⟩ ⟨rfl, rfl⟩ ?_ (congrArg fun r : Pan ρ α => { r with statistics := s })
  show (p.scheduler, p.sources, s) = (q.scheduler, q.sources, s)
  rw [h.scheduler_eq, h.sources_eq]

/-! ### Devices -/

theorem routine (h : Linked slots channels ids x p q) {β : Type} {f : Mac Unit → β × Mac Unit}
    (hf : Mac.Routine f) (i : Nat) :
    Linked slots channels ids x (p.routine f i) (q.routine f i) where
  left := h.left.routine hf i
  right := h.right.routine hf i
  bareAt_eq j hj := by
    rw [bareAt, bareAt, getElem?_routine (h.left.deviceAt_eq hj),
      getElem?_routine (h.right.deviceAt_eq hj)]
    refine congrArg some ?_
    split
    · exact (hf.bare_congr (h.bare_deviceAt_eq hj)).2
    · exact h.bare_deviceAt_eq hj
  remainder_eq := h.remainder_eq
  answers := by
    have hcapacity : ∀ m : Mac Unit, (f m).2.capacity = m.capacity := by
      obtain ⟨g, hg⟩ := hf
      intro m
      rw [hg]
    have hkept : ∀ {r : Pan ρ α}, Stands slots channels ids x r → ∀ j ∈ ids,
        (r.routine f i).macs[j]?.map Mac.capacity = r.macs[j]?.map Mac.capacity := by
      intro r hr j hj
      rw [getElem?_routine (hr.deviceAt_eq hj), hr.deviceAt_eq hj]
      refine congrArg some ?_
      split
      · exact hcapacity _
      · rfl
    exact h.answers.imp (congrArg _) fun ⟨hu, hu'⟩ =>
      ⟨hu.congr rfl (hkept h.left), hu'.congr rfl (hkept h.right)⟩

/-! ### Deployments -/

theorem twin_deploy (hids : ids.Nodup) (h : Linked slots channels ids x p q) {cs : List Int}
    (hcs : InRange slots channels cs) :
    Twin (deploy (Datum.ofInts cs)) (deploy (Datum.ofInts cs)) p q fun a b p' q' =>
      a = b ∧ Linked slots channels ids (if a then some cs else x) p' q' ∧
        p'.remainder = p.remainder := by
  have hboth : Twin (deploy (Datum.ofInts cs)) (deploy (Datum.ofInts cs)) p q fun a b p' q' =>
      Deploys slots channels ids x cs p a p' ∧ Deploys slots channels ids x cs q b q' :=
    (h.left.ends_deploy hids hcs).mono fun a p' ha =>
      (h.right.ends_deploy hids hcs).mono fun b q' hb => ⟨ha, hb⟩
  refine hboth.same.mono ?_
  rintro a b p' q' ⟨⟨ha, hb⟩, hsame⟩
  have hab : a = b := by
    rcases h.answers with heq | ⟨hu, hu'⟩
    · exact (hsame heq).1
    · rw [ha.accepted hu, hb.accepted hu']
  subst hab
  refine ⟨rfl, ?_, ha.remainder_eq⟩
  exact {
    left := ha.stands
    right := hb.stands
    bareAt_eq := fun i hi => by rw [ha.bareAt_eq i hi, hb.bareAt_eq i hi, h.bareAt_eq i hi]
    remainder_eq := by rw [ha.remainder_eq, hb.remainder_eq, h.remainder_eq]
    answers := h.answers.imp (fun heq => (hsame heq).2) fun ⟨hu, hu'⟩ =>
      ⟨hu.congr ha.mode_eq fun i hi => capacity_of_bareAt_eq (ha.bareAt_eq i hi),
        hu'.congr hb.mode_eq fun i hi => capacity_of_bareAt_eq (hb.bareAt_eq i hi)⟩ }

end Linked

/-! ### The scheduler -/

section Scheduler

variable [Generator ρ α]

/-- The networks are linked after some deployments, of which the last accepted one is in place. -/
def Held (slots channels : Nat) (ids : List Nat) (x : Option (List Int)) (ds : List Deployment)
    (p q : Pan ρ α) : Prop :=
  ∃ x' : Option (List Int), x'.map Datum.ofInts = ds.foldl Ledger.accepting (x.map Datum.ofInts) ∧
    Linked slots channels ids x' p q

theorem Linked.twin_below (hsound : Generator.Sound ρ) (hpos : 0 < channels)
    (h : Linked slots channels ids x p q) :
    Twin ((needs (ρ := ρ) (α := α)).draws.below channels) (needs.draws.below channels) p q
      fun i j p' q' => (i = j ∧ 0 ≤ i ∧ i < channels) ∧ p'.scheduler = p.scheduler ∧
        Linked slots channels ids x p' q' := by
  have hg : p.sources.scheduler = q.sources.scheduler := by rw [h.sources_eq]
  refine Twin.mono (Draws.twin_below (s := p) (t := q) hsound hg hpos) ?_
  rintro i _ _ _ ⟨hi, g, rfl, rfl⟩
  exact ⟨hi, rfl, h.redraw (Sources.setScheduler g)⟩

/-- The scheduler gets the same answers and draws in both networks. -/
theorem coupled_needs (slots : Nat) (hids : ids.Nodup) (hsound : Generator.Sound ρ)
    (hpos : 0 < channels) (x : Option (List Int)) :
    ChannelHopping.Coupled (needs : ChannelHopping.Needs (Pan ρ α) α) needs slots channels
      (Held slots channels ids x) where
  deploy {ds p q configuration} h hcfg := by
    obtain ⟨x', hx', hlinked⟩ := h
    obtain ⟨cs, rfl, hlen, hcs⟩ := hcfg
    refine (hlinked.twin_deploy hids ⟨hlen, hcs⟩).mono ?_
    rintro a _ p' q' ⟨rfl, hnext, -⟩
    refine ⟨rfl, _, ?_, hnext⟩
    rw [List.foldl_append, ← hx']
    cases a <;> rfl
  uniform {ds p q} h := by
    obtain ⟨x', hx', hlinked⟩ := h
    have hg : p.sources.scheduler = q.sources.scheduler := by rw [hlinked.sources_eq]
    refine Twin.mono (Draws.twin_uniform (s := p) (t := q) hg) ?_
    rintro u _ _ _ ⟨rfl, g, rfl, rfl⟩
    exact ⟨rfl, x', hx', hlinked.redraw (Sources.setScheduler g)⟩
  below {ds p q} h := by
    obtain ⟨x', hx', hlinked⟩ := h
    refine (hlinked.twin_below hsound hpos).mono ?_
    rintro i _ p' q' ⟨⟨rfl, hi⟩, -, hnext⟩
    exact ⟨rfl, hi, x', hx', hnext⟩
  note {ds p q} n h := by
    obtain ⟨x', hx', hlinked⟩ := h
    exact ⟨rfl, rfl, x', hx', hlinked.enter n⟩

variable [Arith α]

theorem Linked.twin_uniform (h : Linked slots channels ids x p q) :
    Twin (surroundings (ρ := ρ) (α := α)).draws.uniform surroundings.draws.uniform p q
      fun u v p' q' => u = v ∧ p'.scheduler = p.scheduler ∧ Linked slots channels ids x p' q' := by
  have hg : p.sources.network = q.sources.network := by rw [h.sources_eq]
  refine Twin.mono (Draws.twin_uniform (s := p) (t := q) hg) ?_
  rintro u _ _ _ ⟨rfl, g, rfl, rfl⟩
  exact ⟨rfl, rfl, h.redraw (Sources.setNetwork g)⟩

theorem Linked.twin_boundary (hids : ids.Nodup) (hsound : Generator.Sound ρ)
    (h : Linked slots channels ids x p q) (hc : p.scheduler.Valid slots channels) {asn : Nat}
    (hlater : ∀ last, p.scheduler.asn = some last → last < asn) :
    Twin (surroundings.boundary () asn) (surroundings.boundary () asn) p q fun _ _ p' q' =>
      ∃ x' first policy, Handed slots channels p.scheduler asn first policy ∧
        x'.map Datum.ofInts = (first ++ policy).foldl Ledger.accepting (x.map Datum.ofInts) ∧
        p'.scheduler = p.scheduler.reached asn first policy ∧
        Linked slots channels ids x' p' q' := by
  have hcoupled := coupled_needs slots hids hsound hc.channels_pos x
  have hstart : Held slots channels ids x [] p q := ⟨x, rfl, h⟩
  refine twin_beside.2 ?_
  rw [← h.scheduler_eq]
  refine (hcoupled.twin_onSlotBoundary hstart hc hlater).mono ?_
  rintro _ _ ⟨_, p'⟩ ⟨_, q'⟩ ⟨first, policy, hd, rfl, rfl, x', hx', hlinked⟩
  exact ⟨x', first, policy, hd, hx', rfl, hlinked.reschedule _⟩

theorem Linked.twin_outcome (hids : ids.Nodup) (hsound : Generator.Sound ρ)
    (h : Linked slots channels ids x p q) (hc : p.scheduler.Valid slots channels)
    {slot channel : Nat} (hslot : slot < slots) (hchannel : channel < channels) (success : Bool) :
    Twin (surroundings.outcome () (.int slot) channel success)
      (surroundings.outcome () (.int slot) channel success) p q fun _ _ p' q' =>
      p'.scheduler = p.scheduler.informed slot channel success ∧
        Linked slots channels ids x p' q' := by
  have hcoupled := coupled_needs slots hids hsound hc.channels_pos x
  have hstart : Held slots channels ids x [] p q := ⟨x, rfl, h⟩
  refine twin_beside.2 ?_
  rw [← h.scheduler_eq]
  refine (hcoupled.twin_recordOutcome hstart hc hslot hchannel success).mono ?_
  rintro _ _ ⟨_, p'⟩ ⟨_, q'⟩ ⟨rfl, rfl, x', hx', hlinked⟩
  have hsame : x' = x := by
    refine Option.map_injective (fun a b hab => ?_) hx'
    exact List.map_injective_iff.2 (fun _ _ he => Datum.int.inj he) hab
  subst hsame
  exact ⟨rfl, hlinked.reschedule _⟩

theorem Linked.twin_observe (h : Linked slots channels ids x p q) {r : TransmissionRecord Nat}
    (hkey : r.senderName.IsKey) :
    Twin ((surroundings (ρ := ρ) (α := α)).observe () r) (surroundings.observe () r) p q
      fun _ _ p' q' => p'.scheduler = p.scheduler ∧ Linked slots channels ids x p' q' := by
  have hadd : ∀ s : Statistics, ∃ s', s.add r = .ok s' := by
    intro s
    unfold Statistics.add
    cases hn : r.senderName with
    | list _ => rw [hn] at hkey; exact hkey.elim
    | dict _ => rw [hn] at hkey; exact hkey.elim
    | _ => exact ⟨_, rfl⟩
  obtain ⟨next, hnext⟩ := hadd p.statistics
  unfold Twin
  simp only [surroundings, ends_bind, ends_get, ends_ofExcept, ends_modify]
  exact ⟨next, hnext, next, by rw [← h.statistics_eq]; exact hnext, trivial, h.recount next⟩

end Scheduler

end Pan
end TschLearning
