import TschLearning.Proofs.Scenario.Places
import TschLearning.Proofs.Scenario.Turns

/-! Runs of a network whose devices take turns. Slot by slot it does what the scheduler would do on
its own, so that nothing about its scheduler depends on how many devices there are; and every slot
sees one transmission at most. -/

namespace TschLearning.Pan

open TschLearning.Action ChannelHopping

variable {ρ α : Type} [Arith α] [Generator ρ α] {params : Parameters α}
  {slots channels nodes : Nat} {p : Pan ρ α} {k : Solo ρ α} {trace : List (Event ρ α)}

/-- The transmissions of a run in which devices take turns, up to the slot `asn`: each in a slot of
its own. Where traffic is certain there is one in every slot. -/
structure TakeTurns (slots nodes : Nat) (interference : Interference α) (traffic : α) (asn : Nat)
    (scheduler : ChannelHopping α) (sent : List (TransmissionRecord Nat × Pan ρ α)) : Prop where
  each : ∀ e ∈ sent, TakesTurn slots nodes interference e.1 e.2
  ascending : sent.Pairwise fun d e => d.1.asn < e.1.asn
  past : ∀ e ∈ sent, e.1.asn < asn
  attempts_eq : scheduler.attempts = sent.length
  successes_eq : scheduler.successes = sent.countP (·.1.success)
  busy : Certain ρ traffic → sent.length = asn

namespace TakeTurns

variable {interference : Interference α} {traffic : α} {asn : Nat} {c d : ChannelHopping α}
  {sent : List (TransmissionRecord Nat × Pan ρ α)}

theorem idle (h : TakeTurns slots nodes interference traffic asn c sent)
    (hcounts : d.counts = c.counts) (hidle : ¬ Certain ρ traffic) :
    TakeTurns slots nodes interference traffic (asn + 1) d sent where
  each := h.each
  ascending := h.ascending
  past e he := Nat.lt_succ_of_lt (h.past e he)
  attempts_eq := (congrArg Prod.fst hcounts).trans h.attempts_eq
  successes_eq := (congrArg Prod.snd hcounts).trans h.successes_eq
  busy hcertain := absurd hcertain hidle

theorem concat (h : TakeTurns slots nodes interference traffic asn c sent)
    {r : TransmissionRecord Nat} (hr : TakesTurn slots nodes interference r p)
    (hasn : r.asn = asn) (hcounts : d.counts = (c.counting r.success).counts) :
    TakeTurns slots nodes interference traffic (asn + 1) d (sent ++ [(r, p)]) where
  each e he := by
    rcases List.mem_append.1 he with he | he
    · exact h.each e he
    · rw [List.mem_singleton.1 he]
      exact hr
  ascending := by
    refine List.pairwise_append.2 ⟨h.ascending, List.pairwise_singleton .., ?_⟩
    intro e he f hf
    rw [List.mem_singleton.1 hf]
    show e.1.asn < r.asn
    rw [hasn]
    exact h.past e he
  past e he := by
    rcases List.mem_append.1 he with he | he
    · exact Nat.lt_succ_of_lt (h.past e he)
    · rw [List.mem_singleton.1 he, hasn]
      exact Nat.lt_succ_self asn
  attempts_eq := by
    have hattempts : d.attempts = c.attempts + 1 := congrArg Prod.fst hcounts
    rw [hattempts, h.attempts_eq, List.length_append, List.length_singleton]
  successes_eq := by
    have hsuccesses : d.successes = if r.success then c.successes + 1 else c.successes :=
      congrArg Prod.snd hcounts
    rw [hsuccesses, h.successes_eq, List.countP_append, List.countP_singleton]
    split <;> rfl
  busy hcertain := by rw [List.length_append, List.length_singleton, h.busy hcertain]

end TakeTurns

/-! ### Slots -/

/-- A network in which everything is set for devices to take turns. -/
structure Shared (slots channels nodes : Nat) (traffic : α) (net : Network Nat Unit α) : Prop where
  regular : net.Regular slots channels
  traffic_eq : net.traffic = .ok traffic
  macs_eq : net.macs = List.range nodes
  observers_eq : net.observers.callees = [()]

/-- The one sink is told of the slot. -/
theorem Attuned.twin_deliverBoundary {x : Option (List Int)} (hsound : Generator.Sound ρ)
    (h : Attuned params slots channels nodes x p k) (hn : 0 < nodes)
    (hfirst : x = none → p.scheduler.asn = none) {asn : Nat}
    (hlater : ∀ last, p.scheduler.asn = some last → last < asn) :
    Twin (Network.deliverBoundary surroundings.traced asn
        (List.replicate (List.range nodes).length ()).eraseDups)
      (Solo.inScheduler (onSlotBoundary Solo.needs (.int asn))) (trace, p) k fun _ _ s l =>
        (∃ cs, Attuned params slots channels nodes (some cs) s.2 l) ∧
          s.2.scheduler.asn = some asn ∧ s.2.scheduler.counts = p.scheduler.counts ∧
          transmissions s.1 = transmissions trace := by
  obtain ⟨m, rfl⟩ := Nat.exists_eq_add_one.2 hn
  rw [List.length_range, Network.Coupled.eraseDups_replicate]
  refine Twin.left_bind (twin_left_delivering.2 ((h.twin_boundary hsound hfirst hlater).mono ?_))
    fun _ _ _ _ hp => hp
  rintro _ _ q l ⟨hnext, hasn, hcounts⟩
  refine ⟨hnext, hasn, hcounts, ?_⟩
  rw [transmissions_concat]
  exact List.append_nil _

/-- Between two slots: the network and the scheduler on its own have come equally far, and the
slot `asn` is next. -/
structure InTurn (params : Parameters α) (slots channels nodes : Nat)
    (interference : Interference α) (traffic : α) (asn : Nat) (s : List (Event ρ α) × Pan ρ α)
    (k : Solo ρ α) : Prop where
  attuned : ∃ x, Attuned params slots channels nodes x s.2 k ∧
    (x = none → s.2.scheduler.asn = none)
  later : ∀ last, s.2.scheduler.asn = some last → last < asn
  turns : TakeTurns slots nodes interference traffic asn s.2.scheduler (transmissions s.1)

theorem InTurn.twin_runSlot {traffic : α} (hsound : Generator.Sound ρ)
    {net : Network Nat Unit α} (hnet : Shared slots channels nodes traffic net) (hn : 0 < nodes)
    (h : InTurn params slots channels nodes net.interference traffic net.asn (trace, p) k) :
    Twin (Network.runSlot surroundings.traced net)
      (Solo.runSlot slots net.interference traffic net.asn) (trace, p) k fun net' _ s l =>
        net' = { net with asn := net.asn + 1 } ∧
        InTurn params slots channels nodes net.interference traffic (net.asn + 1) s l := by
  obtain ⟨⟨x, h, hfirst⟩, hlater, hturns⟩ := h
  dsimp only at h hfirst hlater hturns
  obtain ⟨t, ht⟩ : ∃ t, t = net.asn % slots := ⟨_, rfl⟩
  have htlt : t < slots := ht ▸ Nat.mod_lt _ hnet.regular.slots_pos
  unfold Network.runSlot Solo.runSlot
  rw [hnet.regular.slots_eq, Network.Coupled.slotAt_eq_ok hnet.regular.slots_pos, ← ht,
    hnet.traffic_eq, hnet.macs_eq, twin_left_bind, ends_ofExcept]
  refine ⟨_, rfl, ?_⟩
  rw [twin_left_bind]
  refine (h.ends_announce net.asn (List.Subset.refl _)).mono ?_
  rintro _ ⟨trace', p₁⟩ ⟨htrace, h₁, hscheduler⟩
  dsimp only at htrace h₁ hscheduler
  subst htrace
  rw [← hscheduler] at hfirst hlater hturns
  rw [twin_left_bind]
  refine (h₁.ends_sinksOf (List.Subset.refl _)).mono ?_
  rintro _ _ ⟨rfl, rfl⟩
  refine Twin.bind (h₁.twin_deliverBoundary hsound hn hfirst hlater) ?_
  rintro _ _ ⟨trace₂, p₂⟩ l ⟨⟨cs, h₂⟩, hasn, hcounts, hsame⟩
  dsimp only at h₂ hasn hcounts hsame
  obtain ⟨c, hc, hfound, hconfigured⟩ := h₂.channel_eq htlt
  obtain ⟨channel, hchannel⟩ : ∃ channel : Int, channel = c := ⟨_, rfl⟩
  rw [← hchannel] at hfound hconfigured
  rw [twin_get_bind]
  have hsolo : l.scheduler.configuration = p₂.scheduler.configuration := by
    rw [← h₂.mirrors.solo_eq]
    rfl
  rw [hsolo, hconfigured]
  refine Twin.bind (h₂.twin_transmitters htlt hn hfound) ?_
  rintro sent frame ⟨trace₃, p₃⟩ l ⟨hsent, htrace, hp₃, h₃, hcertain⟩
  dsimp only at htrace hp₃ h₃
  subst htrace
  have hscheduler₃ : p₃.scheduler = p₂.scheduler := by rw [hp₃]
  rw [← hscheduler₃] at hasn hcounts hconfigured
  rw [← hsame] at hturns
  have hpast : ∀ {c : ChannelHopping α}, c.asn = some net.asn →
      ∀ last, c.asn = some last → last < net.asn + 1 := by
    intro c hc last hlast
    rw [hc, Option.some.injEq] at hlast
    omega
  cases frame with
  | false =>
    obtain rfl := hsent
    refine ⟨rfl, ⟨some cs, h₃, fun hnone => by cases hnone⟩, hpast hasn, hturns.idle hcounts ?_⟩
    exact fun hall => absurd (hcertain hall) Bool.false_ne_true
  | true =>
    obtain rfl := hsent
    simp only [if_true]
    refine Twin.left_bind (h₃.twin_confirm hsound hnet.regular hnet.observers_eq hn hc hchannel ht
      hconfigured hasn) ?_
    rintro _ _ ⟨trace₄, p₄⟩ l ⟨h₄, r, q, hsent, hr, hturn, hinformed⟩
    dsimp only at h₄ hsent hinformed
    have hcounted : p₄.scheduler.counts = (p₁.scheduler.counting r.success).counts := by
      rw [hinformed, counts_informed]
      exact counts_counting hcounts _
    have hasn₄ : p₄.scheduler.asn = some net.asn := by rw [hinformed, asn_informed, hasn]
    show Ends (Network.deliverOverheard _ _ _ _ >>= fun _ => pure _) _ _
    rw [ends_bind]
    refine (h₄.ends_deliverOverheard (.int t) _ (List.Subset.refl _)).mono ?_
    rintro _ ⟨trace₅, _⟩ ⟨rfl, hquiet⟩
    refine ⟨rfl, ⟨some cs, h₄, fun hnone => by cases hnone⟩, hpast hasn₄, ?_⟩
    dsimp only at hquiet ⊢
    rw [hquiet, hsent]
    exact hturns.concat hturn hr hcounted

theorem InTurn.twin_runSlots {traffic : α} (hsound : Generator.Sound ρ) (hn : 0 < nodes)
    {net : Network Nat Unit α} (hnet : Shared slots channels nodes traffic net) (n : Nat)
    (h : InTurn params slots channels nodes net.interference traffic net.asn (trace, p) k) :
    Twin (Network.runSlots surroundings.traced n)
      (Solo.runSlots slots net.interference traffic net.asn n) (net, trace, p) k fun _ _ s l =>
        s.1 = { net with asn := net.asn + n } ∧
        InTurn params slots channels nodes net.interference traffic (net.asn + n) s.2 l := by
  induction n generalizing net trace p k with
  | zero => exact ⟨rfl, h⟩
  | succ n ih =>
    unfold Network.runSlots Solo.runSlots
    have hadvance : Twin (Network.advance surroundings.traced)
        (Solo.runSlot slots net.interference traffic net.asn) (net, trace, p) k fun _ _ s l =>
          s.1 = { net with asn := net.asn + 1 } ∧
          InTurn params slots channels nodes net.interference traffic (net.asn + 1) s.2 l := by
      unfold Network.advance
      rw [twin_left_bind, ends_part]
      have hslot : Twin (Network.runSlot surroundings.traced net).outside
          (Solo.runSlot slots net.interference traffic net.asn) (net, trace, p) k fun net' _ s l =>
            net' = { net with asn := net.asn + 1 } ∧
            InTurn params slots channels nodes net.interference traffic (net.asn + 1) s.2 l :=
        twin_left_outside.2 (h.twin_runSlot hsound hnet hn)
      exact Twin.left_bind hslot fun _ _ _ _ hp => hp
    refine Twin.bind hadvance ?_
    rintro _ _ ⟨net', trace', q⟩ l ⟨hnet', hnext⟩
    obtain rfl : net' = { net with asn := net.asn + 1 } := hnet'
    have hshared : Shared slots channels nodes traffic { net with asn := net.asn + 1 } :=
      { hnet with regular := { hnet.regular with } }
    rw [Nat.add_comm n 1, ← Nat.add_assoc]
    exact ih hshared hnext

end TschLearning.Pan

namespace TschLearning.ChannelHoppingScenario

open TschLearning.Action ChannelHopping Pan

variable {ρ α : Type} [Arith α] [Generator ρ α] {c : ChannelHoppingScenario α}
  {slots channels : Nat} {q : α}

omit [Arith α] [Generator ρ α] in
theorem shared_wired (hs : c.slots = .int slots) (hsized : c.Sized slots channels)
    (htraffic : c.traffic = .ok q) : Shared slots channels c.nodes q c.wired where
  regular := regular_wired hsized.fits hs hsized.interference_eq htraffic
  traffic_eq := htraffic
  macs_eq := rfl
  observers_eq := Notifier.callees_place_create _ _ () _

/-- The scheduler of a scenario on its own, with its first configuration. -/
def Alone (c : ChannelHoppingScenario α) (slots channels : Nat) (sources : Sources ρ)
    (k : Solo ρ α) : Prop :=
  Solo.begin ⟨fresh c.params (.text "PAN") .ofModule slots channels, sources, .empty, .empty⟩
    = .ok () k

/-- A scenario that fits into memory can be prepared, and then its devices take turns. -/
theorem prepared_inTurn (hsound : Generator.Sound ρ) (hs : c.slots = .int slots)
    (hc : c.channels = .int channels) (hsized : c.Sized slots channels) (mode : DeployMode)
    (sources : Sources ρ) :
    ∃ p k, c.prepared mode sources = .ok (c.wired, p) ∧ c.Alone slots channels sources k ∧
      InTurn c.params slots channels c.nodes c.interference q 0 ([], p) k := by
  obtain ⟨macs, hlen, hplain, hseated, hprepared⟩ := prepared_of_sized hs hc hsized mode sources
  have hmirrors := mirrors_assembled hlen hplain hseated mode
    (fresh c.params (.text "PAN") .ofModule slots channels) sources
  obtain ⟨_, p, _, k, hp, hk, cs, hcs, hscheduler, hstart⟩ :=
    twin_iff.1 (hmirrors.twin_begin hsound hsized.fits rfl rfl)
  refine ⟨p, k, by rw [hprepared, hp], hk, ?_⟩
  have hfollows : Follows c.params slots channels .empty p.scheduler := by
    rw [hscheduler]
    exact follows_fresh hsized.fits hcs.1 hcs.2
  have hnone : p.scheduler.asn = none := by rw [hscheduler]; rfl
  exact {
    attuned := ⟨none, ⟨hstart, .empty, hfollows, rfl⟩, fun _ => hnone⟩
    later := fun last hlast => by rw [hnone] at hlast; cases hlast
    turns := {
      each := fun e he => absurd he List.not_mem_nil
      ascending := List.Pairwise.nil
      past := fun e he => absurd he List.not_mem_nil
      attempts_eq := by rw [hscheduler]; rfl
      successes_eq := by rw [hscheduler]; rfl
      busy := fun _ => rfl } }

/-- A scenario that fits into memory runs for any number of slots, as its scheduler would on its
own. -/
theorem runs_inTurn (hsound : Generator.Sound ρ) (hs : c.slots = .int slots)
    (hc : c.channels = .int channels) (htraffic : c.traffic = .ok q) (hn : 0 < c.nodes)
    (hsized : c.Sized slots channels) (mode : DeployMode) (sources : Sources ρ) :
    ∃ p k, c.prepared mode sources = .ok (c.wired, p) ∧ c.Alone slots channels sources k ∧
      ∀ n, ∃ p' trace l,
        Network.runSlots surroundings n (c.wired, p) = .ok () ({ c.wired with asn := n }, p') ∧
        Network.runSlots surroundings.traced n (c.wired, [], p)
          = .ok () ({ c.wired with asn := n }, trace, p') ∧
        Solo.runSlots slots c.interference q 0 n k = .ok () l ∧
        InTurn c.params slots channels c.nodes c.interference q n (trace, p') l := by
  obtain ⟨p, k, hprepared, halone, hstart⟩ :=
    prepared_inTurn (q := q) hsound hs hc hsized mode sources
  refine ⟨p, k, hprepared, halone, fun n => ?_⟩
  have hrun : Twin (Network.runSlots surroundings.traced n)
      (Solo.runSlots slots c.interference q 0 n) (c.wired, [], p) k fun _ _ s l =>
        s.1 = { c.wired with asn := 0 + n } ∧
        InTurn c.params slots channels c.nodes c.interference q (0 + n) s.2 l :=
    hstart.twin_runSlots hsound hn (shared_wired hs hsized htraffic) n
  rw [Nat.zero_add] at hrun
  obtain ⟨_, ⟨_, trace, p'⟩, _, l, htraced, hsolo, rfl, hend⟩ := twin_iff.1 hrun
  exact ⟨p', trace, l, Network.runSlots_of_traced _ htraced, htraced, hsolo, hend⟩

end TschLearning.ChannelHoppingScenario
