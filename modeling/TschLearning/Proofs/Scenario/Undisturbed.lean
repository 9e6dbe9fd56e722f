import TschLearning.Proofs.Scenario.Shared

/-! Channel-hopping scenarios lose nothing but what interference takes. Every slot has one owner,
so no two devices transmit in one slot; and every frame leaves its queue in the slot that it came
in. -/

namespace TschLearning

/-- Numbers are drawn from the unit interval, whose upper end is excluded. -/
structure Generator.WithinUnit (ρ : Type) {α : Type} [Arith α] [Generator ρ α] : Prop where
  zero_lt_one : Arith.lt (0 : α) 1 = true
  not_below_zero (g : ρ) : Arith.lt (Generator.uniform g).1 0 = false
  below_one (g : ρ) : Arith.lt (Generator.uniform g).1 1 = true

namespace Interference

variable {α : Type} [Arith α] {m : Interference α}

omit [Arith α] in
theorem mem_of_probability? {channel : Int} {p : α} (h : m.probability? channel = some p) :
    p ∈ m.probabilities := by
  simp only [probability?, Option.ite_none_left_eq_some] at h
  exact List.mem_of_getElem? h.2

/-- Without interference every failure probability is zero. -/
theorem probability?_of_clear {channels : Datum} (h : clear channels = .ok m) {channel : Int}
    {p : α} (hp : m.probability? channel = some p) : p = 0 := by
  have hzero : ∀ {i : Int}, clearFor i = .ok m → p = 0 := by
    intro i hi
    unfold clearFor at hi
    split at hi
    · cases hi
    · cases hi
      exact List.eq_of_mem_replicate (mem_of_probability? hp)
  unfold clear at h
  split at h
  · split at h
    · cases h
    · split at h
      · cases h
      · exact hzero h
  · exact hzero h
  · cases h

end Interference

namespace Pan

open ChannelHopping

variable {ρ α : Type} [Arith α] [Generator ρ α] {slots channels nodes : Nat} {x : Option (List Int)}
  {p : Pan ρ α} {k : Solo ρ α}

omit [Arith α] [Generator ρ α] in
/-- No frame is waiting at any device. -/
theorem Mirrors.drained (h : Mirrors slots channels nodes x p k) {i : Nat} (hi : i < nodes) :
    ∃ m, p.macs[i]? = some m ∧ m.queue = [] :=
  ⟨_, h.stands.deviceAt_eq (List.mem_range.2 hi), (h.seated i hi).queue_eq⟩

/-- Without interference a transmission that comes about in turn succeeds. -/
theorem TakesTurn.success (hunit : Generator.WithinUnit ρ) {interference : Interference α}
    (hclear : ∀ channel q, interference.probability? channel = some q → q = 0)
    {r : TransmissionRecord Nat} (h : TakesTurn slots nodes interference r p) :
    r.success = true := by
  obtain ⟨g, u, q, hdraw, hq, hsuccess⟩ := h.undisturbed
  have hu := hunit.not_below_zero g
  rw [hdraw] at hu
  rw [hsuccess, hclear _ _ hq, hu]
  rfl

end Pan

namespace ChannelHoppingScenario

open Pan ChannelHopping

variable {ρ α : Type} [Arith α] [Generator ρ α]

/-- What holds of a scenario after `n` slots. No two transmissions are of one slot, so there is
none that another one could have collided with. -/
structure Orderly (c : ChannelHoppingScenario α) (slots : Nat) (traffic : α) (n : Nat)
    (p : Pan ρ α) (trace : List (Event ρ α)) : Prop where
  accepted : p.deployer.failures = 0
  drained : ∀ i < c.nodes, ∃ m, p.macs[i]? = some m ∧ m.queue = []
  turns : TakeTurns slots c.nodes c.interference traffic n p.scheduler (transmissions trace)
  lossless : Interference.clear c.channels = .ok c.interference →
    p.scheduler.successes = p.scheduler.attempts
  busy : traffic = 1 → p.scheduler.attempts = n

variable {c : ChannelHoppingScenario α} {slots channels : Nat} {q : α}

theorem orderly_of_inTurn {n : Nat} {p : Pan ρ α} {trace : List (Event ρ α)} {k : Solo ρ α}
    (hunit : Generator.WithinUnit ρ)
    (h : InTurn c.params slots channels c.nodes c.interference q n (trace, p) k) :
    c.Orderly slots q n p trace where
  accepted := by
    obtain ⟨x, hattuned, -⟩ := h.attuned
    exact hattuned.mirrors.failures_eq
  drained i hi := by
    obtain ⟨x, hattuned, -⟩ := h.attuned
    exact hattuned.mirrors.drained hi
  turns := h.turns
  lossless hclear := by
    rw [h.turns.attempts_eq, h.turns.successes_eq, List.countP_eq_length]
    exact fun e he =>
      (h.turns.each e he).success hunit fun _ _ => Interference.probability?_of_clear hclear
  busy hone := by
    rw [h.turns.attempts_eq]
    exact h.turns.busy (hone ▸ ⟨hunit.zero_lt_one, hunit.below_one⟩)

/-- The devices of a channel-hopping scenario share the slotframe without collisions and without
losses, however many they are: after any number of slots all deployments were accepted, no frame is
waiting, and every slot saw one transmission at most, by the owner of the slot on the channel that
was configured for it. Only a scenario that does not fit into memory or has no failure probability
for every channel cannot be prepared. -/
theorem devices_take_turns (hsound : Generator.Sound ρ) (hunit : Generator.WithinUnit ρ)
    (hs : c.slots = .int slots) (hc : c.channels = .int channels) (htraffic : c.traffic = .ok q)
    (hn : 0 < c.nodes) (mode : DeployMode) (sources : Sources ρ) :
    (∃ f, ¬c.Sized slots channels ∧ c.prepared mode sources = .error f) ∨
    ∃ net p, c.prepared mode sources = .ok (net, p) ∧
      ∀ n, ∃ net' p' trace,
        Network.runSlots surroundings n (net, p) = .ok () (net', p') ∧
        Network.runSlots surroundings.traced n (net, [], p) = .ok () (net', trace, p') ∧
        net'.asn = n ∧ c.Orderly slots q n p' trace := by
  by_cases hsized : c.Sized slots channels
  · obtain ⟨p, k, hprepared, -, hruns⟩ := runs_inTurn hsound hs hc htraffic hn hsized mode sources
    refine .inr ⟨c.wired, p, hprepared, fun n => ?_⟩
    obtain ⟨p', trace, l, hrun, htraced, -, hend⟩ := hruns n
    exact ⟨_, p', trace, hrun, htraced, rfl, orderly_of_inTurn hunit hend⟩
  · obtain ⟨f, hfail⟩ := prepared_of_not_sized (ρ := ρ) hs hc hsized
    exact .inl ⟨f, hsized, hfail c.nodes hn mode sources⟩

end ChannelHoppingScenario

/-- A generator that draws one half, and the smallest of all integers, over and over. -/
inductive Still where
  | still

instance : Generator Still Float where
  uniform g := (0.5, g)
  below _ g := (.ok 0, g)

namespace Still

theorem sound : Generator.Sound Still :=
  fun _ g h => ⟨0, g, rfl, Int.le_refl 0, Int.natCast_pos.2 h⟩

theorem withinUnit : Generator.WithinUnit Still where
  zero_lt_one := by decide +kernel
  not_below_zero _ := show Arith.lt (0.5 : Float) 0 = false by decide +kernel
  below_one _ := show Arith.lt (0.5 : Float) 1 = true by decide +kernel

end Still

namespace ChannelHoppingScenario

open Pan

def threeNodes : ChannelHoppingScenario Float where
  nodes := 3
  slots := .int 2
  channels := .int 2
  interference := ⟨[0, 0]⟩
  traffic := .ok 1
  params := .level 0 0
  mode := .links

/-- Four slots of three nodes. -/
theorem devices_take_turns_threeNodes :
    ∃ (net net' : Network Nat Unit Float) (p p' : Pan Still Float),
      threeNodes.prepared .links (.shared .still) = .ok (net, p) ∧
      Network.runSlots surroundings 4 (net, p) = .ok () (net', p') ∧
      p'.deployer.failures = 0 ∧ p'.scheduler.attempts = 4 ∧ p'.scheduler.successes = 4 := by
  have hs : threeNodes.slots = .int (2 : Nat) := rfl
  have hc : threeNodes.channels = .int (2 : Nat) := rfl
  have htraffic : threeNodes.traffic = .ok 1 := rfl
  have hsized : threeNodes.Sized 2 2 := ⟨⟨by decide, by decide, by decide⟩, by decide, rfl⟩
  have hclear : Interference.clear threeNodes.channels = .ok threeNodes.interference := rfl
  obtain ⟨_, hnot, -⟩ | ⟨net, p, hp, hruns⟩ := devices_take_turns Still.sound Still.withinUnit hs hc
    htraffic (by decide) .links (.shared .still)
  · exact absurd hsized hnot
  · obtain ⟨net', p', _, hrun, -, -, horderly⟩ := hruns 4
    have hbusy := horderly.busy rfl
    exact ⟨net, net', p, p', hp, hrun, horderly.accepted, hbusy,
      (horderly.lossless hclear).trans hbusy⟩

end ChannelHoppingScenario
end TschLearning
