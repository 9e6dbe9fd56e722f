import TschLearning.Proofs.Learning.Rates
import TschLearning.Proofs.Scenario.Tuned

/-! A device of a star together with its scheduler. Whatever happens to the two of them goes
through, and there are few ways in which a slot can begin. -/

namespace TschLearning

open TschLearning.Action

namespace SlotSelection

variable {μ α : Type} {a b c : SlotSelection μ α}

theorem Kin.refl (a : SlotSelection μ α) : a.Kin a :=
  ⟨a.table, a.peaking, a.epsilon, a.activation, rfl, rfl, rfl, rfl⟩

theorem Kin.trans (hab : a.Kin b) (hbc : b.Kin c) : a.Kin c := by
  obtain ⟨table, peaking, epsilon, activation, rfl, hs, hc, hl⟩ := hab
  obtain ⟨table', peaking', epsilon', activation', rfl, hs', hc', hl'⟩ := hbc
  exact ⟨table', peaking', epsilon', activation', rfl, hs'.trans hs, hc'.trans hc, hl'.trans hl⟩

end SlotSelection

namespace Star

open SlotSelection

variable {ρ : Type} {s t : Star ρ Float} {i slots asn : Nat} {mac : Mac Nat}
  {a b : SlotSelection Nat Float}

/-- A device on a single channel that may transmit in every slot, and its scheduler. The device has
no link but one in the slot that the scheduler has chosen. -/
structure Fitted (slots i : Nat) (mac : Mac Nat) (a : SlotSelection Nat Float) : Prop where
  slots_eq : mac.slots = .int slots
  channels_eq : mac.channels = .int 1
  owned_eq : mac.owned = List.range slots
  sequence_eq : mac.sequence = none
  sink_eq : mac.sink = some i
  name_eq : mac.name = .text (senderName i)
  mac_eq : a.mac = i
  offset_eq : a.channelOffset = .int 0
  table_slots : a.table.slots = slots
  table_channels : a.table.channels = 1
  scores_length : a.peaking.scores.length = slots
  anneals : a.params.Anneals
  failures_eq : a.deployer.failures = 0
  tuned : Tuned i mac a.deployer
  link : ∀ s c, mac.links.channel? s = some c → s = a.action ∧ c = 0
  action_nonneg : 0 ≤ a.action
  action_lt : a.action < slots

namespace Fitted

theorem kin (h : Fitted slots i mac a) (hab : a.Kin b) : Fitted slots i mac b := by
  obtain ⟨table, peaking, epsilon, activation, rfl, hs, hc, hl⟩ := hab
  exact { h with
    table_slots := hs.trans h.table_slots
    table_channels := hc.trans h.table_channels
    scores_length := hl.trans h.scores_length }

theorem counting (h : Fitted slots i mac a) (success : Bool) :
    Fitted slots i mac (a.counting success) := by
  unfold SlotSelection.counting confirmed
  dsimp only
  split
  · split <;> exact { h with }
  · exact h

theorem requeue (h : Fitted slots i mac a) (queue : List Frame) (asn : Option Nat) :
    Fitted slots i { mac with queue, asn } a :=
  { h with tuned := { h.tuned with } }

theorem request (h : Fitted slots i mac a) (destination size : Datum) :
    Fitted slots i (mac.request destination size) (asking a) :=
  { h.requeue (mac.queue ++ [Frame.mk destination size mac.asn]) mac.asn with }

/-- A device that owns every slot transmits where it has a link. -/
theorem channelFor_eq (h : Fitted slots i mac a) (hpos : 0 < slots) (asn : Nat) :
    mac.channelFor (.int (asn % slots : Nat)) = .ok (mac.links.channel? (asn % slots : Nat)) := by
  have howned : mac.owned.contains (asn % slots) = true := by
    rw [h.owned_eq, List.contains_iff_mem]
    exact List.mem_range.2 (Nat.mod_lt asn hpos)
  have hnone : ¬((asn % slots : Nat) : Int) < 0 := Int.not_lt.2 (Int.natCast_nonneg _)
  show Except.ok (mac.channelIn _) = _
  simp only [Mac.channelIn, Int.toNat_natCast, howned, hnone, h.sequence_eq, Option.bind_none]
  cases mac.links.channel? (asn % slots : Nat) <;> rfl

/-- A slot that the scheduler can choose is one of the slotframe. -/
theorem lt_of_eligible (h : Fitted slots i mac a) (hpos : 0 < slots) {slot : Nat}
    (hslot : a.Eligible slot) : slot < slots :=
  SlotSelection.lt_of_eligible h.table_slots h.scores_length hpos hslot

theorem covers (h : Fitted slots i mac a) {slot : Nat} (hslot : slot < slots) :
    mac.Covers slot 0 := by
  constructor
  · rw [h.slots_eq, Datum.bounds_int]
    omega
  · rw [h.channels_eq, Datum.bounds_int]
    omega

theorem moved (h : Fitted slots i mac a) {slot : Nat} (hslot : slot < slots) {l : Links}
    {d : LinkDeployer Nat} (htuned : Tuned i (mac.withLinks l) d)
    (hfailures : d.failures = a.deployer.failures) (hlast : d.last = ⟨[((slot : Int), 0)]⟩) :
    Fitted slots i (mac.withLinks l) { a with action := slot, deployer := d } where
  slots_eq := h.slots_eq
  channels_eq := h.channels_eq
  owned_eq := h.owned_eq
  sequence_eq := h.sequence_eq
  sink_eq := h.sink_eq
  name_eq := h.name_eq
  mac_eq := h.mac_eq
  offset_eq := h.offset_eq
  table_slots := h.table_slots
  table_channels := h.table_channels
  scores_length := h.scores_length
  anneals := h.anneals
  failures_eq := hfailures.trans h.failures_eq
  tuned := htuned
  link s c hlink := by
    rw [htuned.channel?_eq, hlast] at hlink
    simp only [Links.channel?, Links.channelIn?] at hlink
    split at hlink
    · rename_i hs
      cases hlink
      exact ⟨hs.symm, rfl⟩
    · cases hlink
  action_nonneg := Int.natCast_nonneg slot
  action_lt := Int.ofNat_lt.2 hslot

end Fitted

/-! ### Events -/

theorem Noted.refl (s : Star ρ Float) : Noted s s := ⟨s.notes, rfl⟩

theorem Noted.enter (h : Noted s t) (n : Note) : Noted s (Journal.enter n t) := by
  obtain ⟨notes, rfl⟩ := h
  exact ⟨n :: notes, rfl⟩

variable [Generator ρ Float]

/-- Nothing has changed but what the scheduler has learned. -/
theorem blind_noted (a : SlotSelection Nat Float) (s : Star ρ Float) :
    Blind False needs fun b p => a.Kin b ∧ Noted s p.2 where
  kin h hab := ⟨h.1.trans hab, h.2⟩
  note n h := ⟨rfl, h.1, h.2.enter n⟩
  uniform h := Draws.meets_uniform _ _ fun _ _ => h

/-- The link was moved, and nothing else has changed but what the scheduler has learned. -/
def Moved (slots i : Nat) (mac : Mac Nat) (a : SlotSelection Nat Float) (s : Star ρ Float)
    (b : SlotSelection Nat Float) (p : ρ × Star ρ Float) : Prop :=
  ∃ (slot : Nat) (d : LinkDeployer Nat) (l : Links),
    Fitted slots i (mac.withLinks l) { a with action := slot, deployer := d } ∧
      l.channel? slot = some 0 ∧ ({ a with action := slot, deployer := d }).Kin b ∧
      Noted (shelf.put i (mac.withLinks l) s) p.2

theorem blind_moved (slots i : Nat) (mac : Mac Nat) (a : SlotSelection Nat Float)
    (s : Star ρ Float) : Blind False needs (Moved slots i mac a s) where
  kin h hab := by
    obtain ⟨slot, d, l, hfitted, hlink, hkin, hnoted⟩ := h
    exact ⟨slot, d, l, hfitted, hlink, hkin.trans hab, hnoted⟩
  note n h := by
    obtain ⟨slot, d, l, hfitted, hlink, hkin, hnoted⟩ := h
    exact ⟨rfl, slot, d, l, hfitted, hlink, hkin, hnoted.enter n⟩
  uniform h := Draws.meets_uniform _ _ fun _ _ => h

theorem Fitted.moves (h : Fitted slots i mac a) (hpos : 0 < slots) (hmac : s.macs[i]? = some mac) :
    Blind.Moves False (needs (ρ := ρ)) (fun b p => a.Kin b ∧ Noted s p.2)
      (Moved slots i mac a s) := by
  rintro b ⟨g, t⟩ slot ⟨hkin, hnoted⟩ hslot
  have hfitted := h.kin hkin
  have hlt := hfitted.lt_of_eligible hpos hslot
  obtain ⟨notes, rfl⟩ := hnoted
  have hlinks : b.linkIn slot = .ok ⟨[((slot : Int), 0)]⟩ := by
    rw [linkIn, hfitted.offset_eq]
    rfl
  have hdistinct : Links.Distinct ⟨[((slot : Int), 0)]⟩ := List.nodup_singleton _
  have hcov : ∀ e ∈ [((slot : Int), (0 : Int))], mac.Covers e.1 e.2 := by
    intro e he
    rw [List.mem_singleton.1 he]
    exact h.covers hlt
  have hdeploy := hfitted.tuned.ends_deploy (s := { s with notes }) hmac g hdistinct hcov
  unfold move
  simp only [meets_bind, meets_part, meets_ofExcept_of_eq_ok hlinks, meets_within]
  refine hdeploy.meets.mono ?_
  rintro _ ⟨_, _⟩ ⟨rfl, l, t, heq, htuned, ht⟩
  cases heq
  obtain ⟨table, peaking, epsilon, activation, rfl, hsizes⟩ := hkin
  refine ⟨slot, _, l, h.moved hlt htuned rfl rfl, ?_, ?_, ?_⟩
  · have hchannel : l.channel? slot = Links.channel? ⟨[((slot : Int), 0)]⟩ slot :=
      congrFun htuned.channel?_eq slot
    exact hchannel.trans (if_pos rfl)
  · exact ⟨table, peaking, epsilon, activation, rfl, hsizes⟩
  · obtain ⟨notes', rfl⟩ := ht
    exact ⟨notes', rfl⟩

def Requested (slots i : Nat) (mac : Mac Nat) (a : SlotSelection Nat Float) (s : Star ρ Float)
    (b : SlotSelection Nat Float) (p : ρ × Star ρ Float) : Prop :=
  ∃ (slot : Nat) (d : LinkDeployer Nat) (l : Links) (destination size : Datum),
    Fitted slots i (mac.withLinks l) { a with action := slot, deployer := d } ∧
      l.channel? slot = some 0 ∧ (asking { a with action := slot, deployer := d }).Kin b ∧
      Noted (shelf.put i ((mac.withLinks l).request destination size) s) p.2

theorem requests_moved (a : SlotSelection Nat Float) (hmac : s.macs[i]? = some mac) :
    Blind.Requests False (needs (ρ := ρ)) (Moved slots i mac a s) (Requested slots i mac a s) := by
  rintro b ⟨g, t⟩ ⟨slot, d, l, hfitted, hlink, hkin, notes, rfl⟩
  have hi : b.mac = i := (hfitted.kin hkin).mac_eq
  have hget : (shelf.put i (mac.withLinks l) s).macs[i]? = some (mac.withLinks l) :=
    lawful_shelf.get?_put_self hmac _
  show Meets False (Action.outside (shelf.update b.mac fun mac =>
    .ok ((), mac.request b.destination (.int b.params.packetSize)))) _ _
  rw [meets_outside, hi]
  refine shelf.meets_update ?_ (fun hnone => ?_) fun _ _ _ hf => by cases hf
  · rintro mac' _ _ hmac' ⟨⟩
    obtain rfl := Option.some.inj (hget.symm.trans hmac')
    obtain ⟨table, peaking, epsilon, activation, rfl, hsizes⟩ := hkin
    refine ⟨slot, d, l, a.destination, .int a.params.packetSize, hfitted, hlink,
      ⟨table, peaking, epsilon, activation, rfl, hsizes⟩, notes, ?_⟩
    exact congrArg (fun t : Star ρ Float => { t with notes }) (put_put ..)
  · have hnone' : (shelf.put i (mac.withLinks l) s).macs[i]? = none := hnone
    rw [hget] at hnone'
    cases hnone'

/-- The ways in which a slot can begin for a device and its scheduler. -/
inductive Begins (slots asn : Nat) (mac : Mac Nat) (a : SlotSelection Nat Float) :
    Mac Nat → SlotSelection Nat Float → Prop where
  | within {c : SlotSelection Nat Float} (hasn : asn % slots ≠ 0)
      (hkin : ({ a with asn := some asn }).Kin c) : Begins slots asn mac a mac c
  | start {c : SlotSelection Nat Float} {slot : Nat} {d : LinkDeployer Nat} {l : Links}
      (hasn : asn % slots = 0)
      (hkin : ({ a with asn := some asn, action := slot, deployer := d }).Kin c) :
      Begins slots asn mac a (mac.withLinks l) c
  | request {c : SlotSelection Nat Float} {slot : Nat} {d : LinkDeployer Nat} {l : Links}
      {destination size : Datum} (hasn : asn % slots = 0) (hlink : l.channel? slot = some 0)
      (hkin : (asking { a with asn := some asn, action := slot, deployer := d }).Kin c) :
      Begins slots asn mac a ((mac.withLinks l).request destination size) c

/-- A device and its scheduler in another state, while everything else in the star but the journal
is as it was. -/
structure Turned (i : Nat) (mac : Mac Nat) (a : SlotSelection Nat Float) (s t : Star ρ Float) :
    Prop where
  macs_eq : t.macs = s.macs.setIfInBounds i mac
  schedulers_eq : ∃ g, t.schedulers = s.schedulers.setIfInBounds i (a, g)
  statistics_eq : t.statistics = s.statistics

variable {g : ρ}

theorem setIfInBounds_of_getElem? {β : Type} {xs : Array β} {x : β} (h : xs[i]? = some x) :
    xs.setIfInBounds i x = xs := by
  obtain ⟨hi, rfl⟩ := Array.getElem?_eq_some_iff.1 h
  rw [Array.setIfInBounds_def, dif_pos hi]
  exact Array.set_getElem_self hi

theorem Fitted.meets_boundary (h : Fitted slots i mac a) (hpos : 0 < slots)
    (hmac : s.macs[i]? = some mac) (hi : s.schedulers[i]? = some (a, g))
    (hlater : ∀ last, a.asn = some last → last < asn) (hasn : asn < 2 ^ 1023) :
    Meets False ((surroundings (ρ := ρ)).boundary i asn) s fun _ t =>
      ∃ mac' b, Begins slots asn mac a mac' b ∧ Fitted slots i mac' b ∧ Turned i mac' b s t := by
  have hreached : Fitted slots i mac { a with asn := some asn } := { h with }
  have hrate := annealed_eq_ok h.anneals (hasn.trans_le two_pow_le_integerLimit)
  refine meets_inScheduler (fun a' g' hi' => ?_) fun hnone => ?_
  · obtain ⟨rfl, rfl⟩ := Prod.mk.inj (Option.some.inj (hi.symm.trans hi'))
    have hboundary := (blind_noted { a with asn := some asn } s).meets_onSlotBoundary
      (blind_moved slots i mac { a with asn := some asn } s) (fun _ => hreached.moves hpos hmac)
      (fun _ => requests_moved _ hmac) (.inl hlater) (.inl hrate)
      (s := (g, s)) ⟨Kin.refl _, Noted.refl s⟩
    refine hboundary.mono ?_
    rintro _ ⟨b, g', t⟩ hb
    rw [h.table_slots] at hb
    split at hb
    · rename_i hstart
      rcases hb with ⟨slot, d, l, hfitted, -, hkin, notes, rfl⟩ |
        ⟨slot, d, l, destination, size, hfitted, hlink, hkin, notes, rfl⟩
      · exact ⟨_, b, .start hstart hkin, hfitted.kin hkin, rfl, ⟨g', rfl⟩, rfl⟩
      · refine ⟨_, b, .request hstart hlink hkin, ?_, rfl, ⟨g', rfl⟩, rfl⟩
        exact (hfitted.request destination size).kin hkin
    · rename_i hwithin
      obtain ⟨hkin, notes, rfl⟩ := hb
      refine ⟨mac, b, .within hwithin hkin, hreached.kin hkin, ?_, ⟨g', rfl⟩, rfl⟩
      exact (setIfInBounds_of_getElem? hmac).symm
  · rw [hi] at hnone
    cases hnone

theorem Fitted.meets_outcome (h : Fitted slots i mac a) (hmac : s.macs[i]? = some mac)
    (hi : s.schedulers[i]? = some (a, g)) {slot : Nat} (hslot : slot < slots) (channel : Int)
    (success : Bool) :
    Meets False ((surroundings (ρ := ρ)).outcome i (.int slot) channel success) s fun _ t =>
      ∃ b, (a.counting success).Kin b ∧ Fitted slots i mac b ∧ Turned i mac b s t := by
  refine meets_inScheduler (fun a' g' hi' => ?_) fun hnone => ?_
  · obtain ⟨rfl, rfl⟩ := Prod.mk.inj (Option.some.inj (hi.symm.trans hi'))
    have hin : (∃ n < a.table.slots, Datum.int slot = .int n) ∧ 0 < a.table.channels ∨ False := by
      rw [h.table_slots, h.table_channels]
      exact .inl ⟨⟨slot, hslot, rfl⟩, Nat.one_pos⟩
    refine ((blind_noted (a.counting success) s).meets_onTransmissionOutcome hin (s := (g, s))
      ⟨Kin.refl _, Noted.refl s⟩).mono ?_
    rintro _ ⟨b, g', t⟩ ⟨hkin, notes, rfl⟩
    refine ⟨b, hkin, (h.counting success).kin hkin, ?_, ⟨g', rfl⟩, rfl⟩
    exact (setIfInBounds_of_getElem? hmac).symm
  · rw [hi] at hnone
    cases hnone

theorem Fitted.meets_overheard (h : Fitted slots i mac a) (hmac : s.macs[i]? = some mac)
    (hi : s.schedulers[i]? = some (a, g)) {slot : Nat} (hslot : slot < slots) :
    Meets False ((surroundings (ρ := ρ)).overheard i (.int slot)) s fun _ t =>
      ∃ b, a.Kin b ∧ Fitted slots i mac b ∧ Turned i mac b s t := by
  refine meets_inScheduler (fun a' g' hi' => ?_) fun hnone => ?_
  · obtain ⟨rfl, rfl⟩ := Prod.mk.inj (Option.some.inj (hi.symm.trans hi'))
    have hin : (∃ n < a.peaking.scores.length, Datum.int slot = .int n) ∨ False := by
      rw [h.scores_length]
      exact .inl ⟨slot, hslot, rfl⟩
    refine ((blind_noted a s).meets_onOverheardActivity hin (s := (g, s))
      ⟨Kin.refl _, Noted.refl s⟩).mono ?_
    rintro _ ⟨b, g', t⟩ ⟨hkin, notes, rfl⟩
    refine ⟨b, hkin, h.kin hkin, ?_, ⟨g', rfl⟩, rfl⟩
    exact (setIfInBounds_of_getElem? hmac).symm
  · rw [hi] at hnone
    cases hnone

end Star
end TschLearning
