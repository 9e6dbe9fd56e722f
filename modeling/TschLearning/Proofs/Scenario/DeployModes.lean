import TschLearning.Proofs.Scenario.Prepared

/-! Channel-hopping scenarios do the same with deployers of either kind. -/

namespace TschLearning.ChannelHoppingScenario

open TschLearning.Action ChannelHopping Pan

variable {ρ α : Type} [Arith α] {c : ChannelHoppingScenario α} {slots channels : Nat}
  {macs : List (Mac Unit)} {scheduler : ChannelHopping α} {sources : Sources ρ}

omit [Arith α] in
theorem device_assembled (hlen : macs.length = c.nodes)
    (hplain : ∀ m ∈ macs, Plain slots channels m) (mode : DeployMode) {i : Nat}
    (hi : i ∈ List.range c.nodes) :
    ∃ m, (c.assembled mode macs scheduler sources).macs[i]? = some m ∧ Plain slots channels m := by
  rw [List.mem_range, ← hlen] at hi
  refine ⟨macs[i], ?_, hplain _ (List.getElem_mem hi)⟩
  show macs.toArray[i]? = _
  rw [List.getElem?_toArray, List.getElem?_eq_getElem hi]

omit [Arith α] in
theorem stands_assembled (hlen : macs.length = c.nodes)
    (hplain : ∀ m ∈ macs, Plain slots channels m) (mode : DeployMode) :
    Stands slots channels (List.range c.nodes) none (c.assembled mode macs scheduler sources) := by
  have hd : (c.assembled mode macs scheduler sources).deployer
      = .create mode (List.range c.nodes) := rfl
  refine stands_create (List.Perm.refl _) hd fun i hi => ?_
  obtain ⟨m, hm, hp⟩ := device_assembled hlen hplain mode hi
  exact ⟨m, hm, hp.member, hp.links_eq, hp.sequence_eq⟩

omit [Arith α] in
/-- Networks that differ only in the kind of the deployer are linked before the first slot. -/
theorem linked_assembled (scheduler : ChannelHopping α) (sources : Sources ρ)
    (hlen : macs.length = c.nodes) (hplain : ∀ m ∈ macs, Plain slots channels m) :
    Linked slots channels (List.range c.nodes) none
      (c.assembled .hoppingSequence macs scheduler sources)
      (c.assembled .links macs scheduler sources) where
  left := stands_assembled hlen hplain .hoppingSequence
  right := stands_assembled hlen hplain .links
  bareAt_eq _ _ := rfl
  remainder_eq := rfl
  answers := by
    right
    constructor
    · intro hlinks
      cases hlinks
    · intro _ i hi m hm
      obtain ⟨m', hm', hp⟩ := device_assembled hlen hplain .links hi
      rw [hm] at hm'
      cases hm'
      exact hp.capacity_eq

omit [Arith α] in
theorem regular_wired (hfits : Fits slots channels) (hs : c.slots = .int slots)
    (hint : c.interference.channels = channels) {q : α} (htraffic : c.traffic = .ok q) :
    c.wired.Regular slots channels where
  slots_pos := hfits.slots_pos
  channels_lt := hfits.channels_lt
  slots_eq := hs
  interference_eq := hint
  traffic_ok := ⟨q, htraffic⟩

variable [Generator ρ α]

/-- A channel-hopping scenario does the same with hopping sequences and with links: for any number
of slots the same deliveries are made, among them the records of all transmissions, and in the end
schedulers, statistics and generators are the same. Only a scenario that does not fit into memory
or has no failure probability for every channel fails, in the same way for both. -/
theorem deployModes_equivalent (hsound : Generator.Sound ρ) (hs : c.slots = .int slots)
    (hc : c.channels = .int channels) {q : α} (htraffic : c.traffic = .ok q)
    (sources : Sources ρ) :
    (∃ f, ¬c.Sized slots channels ∧ c.prepared .hoppingSequence sources = .error f ∧
      c.prepared .links sources = .error f) ∨
    ∃ net p q, c.prepared .hoppingSequence sources = .ok (net, p) ∧
      c.prepared .links sources = .ok (net, q) ∧
      ∀ n, ∃ net' p' q' trace trace',
        Network.runSlots surroundings n (net, p) = .ok () (net', p') ∧
        Network.runSlots surroundings n (net, q) = .ok () (net', q') ∧
        Network.runSlots surroundings.traced n (net, [], p) = .ok () (net', trace, p') ∧
        Network.runSlots surroundings.traced n (net, [], q) = .ok () (net', trace', q') ∧
        trace.map Delivered.delivery = trace'.map Delivered.delivery ∧
        p'.scheduler = q'.scheduler ∧ p'.statistics = q'.statistics ∧ p'.sources = q'.sources := by
  obtain ⟨f, hnot, hfail⟩ | ⟨macs, hlen, hplain, hfits, hint, hprepared⟩ :=
    prepared_cases hs hc sources
  · exact .inl ⟨f, hnot, hfail _, hfail _⟩
  · right
    have hlinked := linked_assembled
      (fresh c.params (.text "PAN") .ofModule slots channels) sources hlen hplain
    obtain ⟨_, p, _, q, hp, hq, cs, hcs, hscheduler, hstart⟩ :=
      twin_iff.1 (hlinked.twin_begin hsound hfits rfl rfl)
    refine ⟨c.wired, p, q, by rw [hprepared, hp], by rw [hprepared, hq], fun n => ?_⟩
    have hnet := regular_wired hfits hs hint htraffic
    have htied : TiedTo c.params slots channels c.wired.macs ⟨planOf none, c.wired.asn, false⟩
        ([], p) ([], q) := by
      refine ⟨none, rfl, hstart, ?_, rfl⟩
      show Chronicle _ _ _ _ _ _ _ p.scheduler
      rw [hscheduler]
      exact chronicle_start hfits hcs _
    obtain ⟨_, ⟨_, trace, p'⟩, _, ⟨_, trace', q'⟩, hrun, hrun', rfl, heq, plan, x, -, hend⟩ :=
      twin_iff.1 (htied.twin_runSlots hsound List.nodup_range hnet n)
    obtain rfl := heq
    exact ⟨_, p', q', trace, trace', Network.runSlots_of_traced _ hrun,
      Network.runSlots_of_traced _ hrun', hrun, hrun', hend.deliveries_eq,
      hend.linked.scheduler_eq, hend.linked.statistics_eq, hend.linked.sources_eq⟩

def twoNodes : ChannelHoppingScenario Float where
  nodes := 2
  slots := .int 2
  channels := .int 3
  interference := ⟨[0.1, 0.2, 0.3]⟩
  traffic := .ok 1.0
  params := .level 0 0
  mode := .links

/-- Both kinds of deployers over five slots. -/
theorem deployModes_equivalent_twoNodes :
    ∃ (net net' : Network Nat Unit Float) (p q p' q' : Pan Permuted Float),
      twoNodes.prepared .hoppingSequence (.shared (.ofWords 0 0)) = .ok (net, p) ∧
      twoNodes.prepared .links (.shared (.ofWords 0 0)) = .ok (net, q) ∧
      Network.runSlots surroundings 5 (net, p) = .ok () (net', p') ∧
      Network.runSlots surroundings 5 (net, q) = .ok () (net', q') ∧
      p'.scheduler = q'.scheduler ∧ p'.statistics = q'.statistics := by
  have hs : twoNodes.slots = .int (2 : Nat) := rfl
  have hc : twoNodes.channels = .int (3 : Nat) := rfl
  have htraffic : twoNodes.traffic = .ok 1.0 := rfl
  have hsized : twoNodes.Sized 2 3 := ⟨⟨by decide, by decide, by decide⟩, by decide, rfl⟩
  obtain ⟨_, hnot, -⟩ | ⟨net, p, q, hp, hq, hruns⟩ :=
    deployModes_equivalent Permuted.sound hs hc htraffic (.shared (.ofWords 0 0))
  · exact absurd hsized hnot
  · obtain ⟨net', p', q', _, _, hrun, hrun', -, -, -, hscheduler, hstatistics, -⟩ := hruns 5
    exact ⟨net, net', p, q, p', q', hp, hq, hrun, hrun', hscheduler, hstatistics⟩

end TschLearning.ChannelHoppingScenario
