import TschLearning.Proofs.Scenario.Undisturbed

/-! How many devices share the slotframe makes no difference to what is learned. Two scenarios that
differ in nothing else have one and the same scheduler on its own, slot by slot. -/

namespace TschLearning

namespace Pan

variable {ρ α : Type} {slots channels nodes nodes' : Nat} {x x' : Option (List Int)} {p q : Pan ρ α}
  {k : Solo ρ α}

/-- Two networks that have learned the same and counted the same. How the counts are split by
device is left open. -/
structure LearnedAlike (p q : Pan ρ α) : Prop where
  scheduler_eq : p.scheduler = q.scheduler
  sources_eq : p.sources = q.sources
  channelAttempts_eq : p.statistics.channelAttempts = q.statistics.channelAttempts
  channelSuccesses_eq : p.statistics.channelSuccesses = q.statistics.channelSuccesses
  totalAttempts_eq : p.statistics.totalAttempts = q.statistics.totalAttempts
  totalSuccesses_eq : p.statistics.totalSuccesses = q.statistics.totalSuccesses

/-- Networks that are the same without their devices. -/
theorem Mirrors.learnedAlike (h : Mirrors slots channels nodes x p k)
    (h' : Mirrors slots channels nodes' x' q k) : LearnedAlike p q := by
  have heq : p.solo = q.solo := h.solo_eq.trans h'.solo_eq.symm
  have hattempts : p.statistics.channelAttempts = q.statistics.channelAttempts :=
    congrArg Solo.channelAttempts heq
  have hsuccesses : p.statistics.channelSuccesses = q.statistics.channelSuccesses :=
    congrArg Solo.channelSuccesses heq
  exact {
    scheduler_eq := congrArg Solo.scheduler heq
    sources_eq := congrArg Solo.sources heq
    channelAttempts_eq := hattempts
    channelSuccesses_eq := hsuccesses
    totalAttempts_eq := by rw [h.attempts_eq, h'.attempts_eq, hattempts]
    totalSuccesses_eq := by rw [h.successes_eq, h'.successes_eq, hsuccesses] }

end Pan

namespace ChannelHoppingScenario

open Pan ChannelHopping

variable {ρ α : Type} [Arith α] [Generator ρ α] {c : ChannelHoppingScenario α}
  {slots channels : Nat} {q : α}

/-- The number of devices does not influence a channel-hopping scenario: two scenarios that differ
in it alone learn the same from the same draws, after any number of slots. Where the one does not
fit into memory, or has no failure probability for every channel, neither does the other. -/
theorem headcount_irrelevant (hsound : Generator.Sound ρ) (hs : c.slots = .int slots)
    (hc : c.channels = .int channels) (htraffic : c.traffic = .ok q) {n m : Nat} (hn : 0 < n)
    (hm : 0 < m) (mode : DeployMode) (sources : Sources ρ) :
    (∃ f, ¬c.Sized slots channels ∧ (c.withNodes n).prepared mode sources = .error f ∧
      (c.withNodes m).prepared mode sources = .error f) ∨
    ∃ net p net' p', (c.withNodes n).prepared mode sources = .ok (net, p) ∧
      (c.withNodes m).prepared mode sources = .ok (net', p') ∧
      ∀ count, ∃ last r last' r',
        Network.runSlots surroundings count (net, p) = .ok () (last, r) ∧
        Network.runSlots surroundings count (net', p') = .ok () (last', r') ∧
        LearnedAlike r r' ∧ r.result last = r'.result last' := by
  by_cases hsized : c.Sized slots channels
  · have hsized' : ∀ nodes, (c.withNodes nodes).Sized slots channels :=
      fun _ => ⟨hsized.fits, hsized.steps_le, hsized.interference_eq⟩
    obtain ⟨p, k, hp, hk, hruns⟩ :=
      runs_inTurn (c := c.withNodes n) hsound hs hc htraffic hn (hsized' n) mode sources
    obtain ⟨p', k', hp', hk', hruns'⟩ :=
      runs_inTurn (c := c.withNodes m) hsound hs hc htraffic hm (hsized' m) mode sources
    obtain rfl : k = k' := (EStateM.Result.ok.inj (hk.symm.trans hk')).2
    refine .inr ⟨_, p, _, p', hp, hp', fun count => ?_⟩
    obtain ⟨r, _, l, hrun, -, hsolo, hend⟩ := hruns count
    obtain ⟨r', _, l', hrun', -, hsolo', hend'⟩ := hruns' count
    obtain rfl : l = l' := (EStateM.Result.ok.inj (hsolo.symm.trans hsolo')).2
    obtain ⟨x, hattuned, -⟩ := hend.attuned
    obtain ⟨x', hattuned', -⟩ := hend'.attuned
    have halike := hattuned.mirrors.learnedAlike hattuned'.mirrors
    refine ⟨_, r, _, r', hrun, hrun', halike, ?_⟩
    unfold Pan.result
    rw [halike.scheduler_eq]
  · obtain ⟨f, hfail⟩ := prepared_of_not_sized (ρ := ρ) hs hc hsized
    exact .inl ⟨f, hsized, hfail n hn mode sources, hfail m hm mode sources⟩

/-- One node and four nodes over five slots. -/
theorem headcount_irrelevant_four :
    ∃ (net net' last last' : Network Nat Unit Float) (p p' q q' : Pan Permuted Float),
      (twoNodes.withNodes 1).prepared .links (.shared (.ofWords 0 0)) = .ok (net, p) ∧
      (twoNodes.withNodes 4).prepared .links (.shared (.ofWords 0 0)) = .ok (net', p') ∧
      Network.runSlots surroundings 5 (net, p) = .ok () (last, q) ∧
      Network.runSlots surroundings 5 (net', p') = .ok () (last', q') ∧ LearnedAlike q q' := by
  have hs : twoNodes.slots = .int (2 : Nat) := rfl
  have hc : twoNodes.channels = .int (3 : Nat) := rfl
  have htraffic : twoNodes.traffic = .ok 1.0 := rfl
  have hsized : twoNodes.Sized 2 3 := ⟨⟨by decide, by decide, by decide⟩, by decide, rfl⟩
  obtain ⟨_, hnot, -⟩ | ⟨net, p, net', p', hp, hp', hruns⟩ := headcount_irrelevant Permuted.sound
    hs hc htraffic (n := 1) (m := 4) (by decide) (by decide) .links (.shared (.ofWords 0 0))
  · exact absurd hsized hnot
  · obtain ⟨last, q, last', q', hrun, hrun', halike, -⟩ := hruns 5
    exact ⟨net, net', last, last', p, p', q, q', hp, hp', hrun, hrun', halike⟩

end ChannelHoppingScenario
end TschLearning
