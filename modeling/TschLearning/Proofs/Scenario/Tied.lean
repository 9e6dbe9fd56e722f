import TschLearning.Proofs.Scenario.Linked

/-! Linked networks, slot by slot, with the chronicle of the one and the same deliveries in the
other. -/

namespace TschLearning.Pan

open TschLearning.Action ChannelHopping

variable {ρ α : Type}

/-- The channels of a configuration, if there is one. -/
def planOf (x : Option (List Int)) (slot : Nat) : Option Nat := (x.bind (·[slot]?)).map Int.toNat

variable [Arith α]

/-- Two linked networks with the same deliveries, and a chronicle for the first. -/
structure Tied (params : Parameters α) (slots channels : Nat) (ids : List Nat) (ph : Phase)
    (x : Option (List Int)) (s t : List (Event ρ α) × Pan ρ α) : Prop where
  linked : Linked slots channels ids x s.2 t.2
  chronicle : Chronicle params slots channels ids ph x s.1 s.2.scheduler
  deliveries_eq : s.1.map Delivered.delivery = t.1.map Delivered.delivery

/-- The same, for some configuration that is planned. -/
def TiedTo (params : Parameters α) (slots channels : Nat) (ids : List Nat) (ph : Phase)
    (s t : List (Event ρ α) × Pan ρ α) : Prop :=
  ∃ x, planOf x = ph.plan ∧ Tied params slots channels ids ph x s t

variable {params : Parameters α} {slots channels : Nat} {ids : List Nat} {ph : Phase}
  {x : Option (List Int)} {s t : List (Event ρ α) × Pan ρ α}

omit [Arith α] in
theorem planOf_eq_some {p : Pan ρ α} (h : Stands slots channels ids x p) {slot c : Nat}
    (hc : planOf x slot = some c) :
    c < channels ∧ ∃ cs, x = some cs ∧ cs[slot]? = some (c : Int) := by
  obtain ⟨i, hi, rfl⟩ := Option.map_eq_some_iff.1 hc
  obtain ⟨cs, rfl, hcs⟩ := Option.bind_eq_some_iff.1 hi
  have hrange := (h.inRange cs rfl).2 i (List.mem_of_getElem? hcs)
  have hback : ((i.toNat : Nat) : Int) = i := Int.toNat_of_nonneg hrange.1
  exact ⟨by omega, cs, rfl, by rw [hback]; exact hcs⟩

omit [Arith α] in
/-- Linked devices are alike. -/
theorem Linked.alike {p q : Pan ρ α} (h : Linked slots channels ids x p q) {i : Nat}
    (hi : i ∈ ids) :
    Network.Alike () (planOf x) (p.deviceAt i) (q.deviceAt i) where
  name_eq := by
    have hname := congrArg Mac.name (h.bare_deviceAt_eq hi)
    exact hname
  named := (h.left.member hi).named
  sink_left := (h.left.member hi).attached
  sink_right := (h.right.member hi).attached
  channelFor_eq slot := by
    have howned : (p.deviceAt i).owned = (q.deviceAt i).owned := by
      have ho := congrArg Mac.owned (h.bare_deviceAt_eq hi)
      exact ho
    refine ⟨_, (h.left.holds hi).channelFor slot, ?_, ?_⟩
    · rw [(h.right.holds hi).channelFor slot, howned]
    · split
      · right
        unfold planOf
        cases hx : x.bind (·[slot]?) with
        | none => rfl
        | some c =>
          obtain ⟨cs, rfl, hcs⟩ := Option.bind_eq_some_iff.1 hx
          have hrange := (h.left.inRange cs rfl).2 c (List.mem_of_getElem? hcs)
          exact congrArg some (Int.toNat_of_nonneg hrange.1).symm
      · exact .inl rfl

namespace Tied

theorem replace (h : Tied params slots channels ids ph x s t) {p q : Pan ρ α}
    (hlinked : Linked slots channels ids x p q) (hc : p.scheduler = s.2.scheduler) :
    Tied params slots channels ids ph x (s.1, p) (t.1, q) where
  linked := hlinked
  chronicle := by
    show Chronicle _ _ _ _ _ _ _ p.scheduler
    rw [hc]
    exact h.chronicle
  deliveries_eq := h.deliveries_eq

theorem quiet (h : Tied params slots channels ids ph x s t) {p q : Pan ρ α}
    (hlinked : Linked slots channels ids x p q) (hc : p.scheduler = s.2.scheduler)
    {d : Delivery Nat Unit Unit} (hout : ∀ sink slot channel success,
      d ≠ .outcome sink slot channel success) (hbound : ∀ sink asn, d ≠ .boundary sink asn) :
    Tied params slots channels ids ph x (s.1 ++ [⟨d, s.2, p⟩], p) (t.1 ++ [⟨d, t.2, q⟩], q) where
  linked := hlinked
  chronicle := by
    show Chronicle _ _ _ _ _ _ _ p.scheduler
    rw [hc]
    refine h.chronicle.quiet ?_ fun asn => hbound () asn
    rintro ⟨slot, channel, success, ho⟩
    exact hout _ _ _ _ ho
  deliveries_eq := by
    rw [List.map_append, List.map_append, h.deliveries_eq]
    rfl

end Tied

/-! ### Slot boundaries and outcomes -/

section Events

variable [Generator ρ α] (hids : ids.Nodup) (hsound : Generator.Sound ρ) (hslots : 0 < slots)

include hids hsound

theorem Tied.twin_boundary {plan : Nat → Option Nat} {asn : Nat} (hne : ids ≠ [])
    (h : Tied params slots channels ids ⟨plan, asn, false⟩ x s t) :
    Twin (surroundings.traced.boundary () asn) (surroundings.traced.boundary () asn) s t
      fun _ _ s' t' => ∃ x', Tied params slots channels ids ⟨planOf x', asn, true⟩ x' s' t' := by
  obtain ⟨l, p⟩ := s
  obtain ⟨l', q⟩ := t
  have hlater : ∀ last, p.scheduler.asn = some last → last < asn := by
    intro last hlast
    have hsucc := h.chronicle.asn_succ hne hlast
    omega
  refine twin_delivering.2 ?_
  refine (h.linked.twin_boundary hids hsound h.chronicle.valid hlater).mono ?_
  rintro _ _ p' q' ⟨x', first, policy, hd, hx', hc, hlinked⟩
  refine ⟨x', hlinked, ?_, ?_⟩
  · show Chronicle _ _ _ _ _ _ _ p'.scheduler
    rw [hc]
    exact h.chronicle.reached hne hd hx' _ rfl rfl hc
  · have hl : l.map Delivered.delivery = l'.map Delivered.delivery := h.deliveries_eq
    rw [List.map_append, List.map_append, hl]
    rfl

include hslots

theorem Tied.twin_outcome {plan : Nat → Option Nat} {asn c : Nat} (hne : ids ≠ [])
    (h : Tied params slots channels ids ⟨plan, asn, true⟩ x s t)
    (hplan : planOf x (asn % slots) = some c) (success : Bool) :
    Twin (surroundings.traced.outcome () (.int (asn % slots : Nat)) c success)
      (surroundings.traced.outcome () (.int (asn % slots : Nat)) c success) s t
      fun _ _ => Tied params slots channels ids ⟨plan, asn, true⟩ x := by
  obtain ⟨l, p⟩ := s
  obtain ⟨l', q⟩ := t
  obtain ⟨hlt, cs, rfl, hcs⟩ := planOf_eq_some h.linked.left hplan
  refine twin_delivering.2 ?_
  refine (h.linked.twin_outcome hids hsound h.chronicle.valid (Nat.mod_lt asn hslots) hlt
    success).mono ?_
  rintro _ _ p' q' ⟨hc, hlinked⟩
  refine ⟨hlinked, ?_, ?_⟩
  · show Chronicle _ _ _ _ _ _ _ p'.scheduler
    rw [hc]
    exact h.chronicle.informed (h.chronicle.asn_eq hne) rfl hslots hlt hcs rfl rfl
  · have hl : l.map Delivered.delivery = l'.map Delivered.delivery := h.deliveries_eq
    rw [List.map_append, List.map_append, hl]
    rfl

end Events

/-- Tied networks answer alike, slot by slot. -/
theorem coupled_traced [Generator ρ α] (hids : ids.Nodup) (hsound : Generator.Sound ρ)
    (hslots : 0 < slots) :
    Network.Coupled (surroundings (ρ := ρ) (α := α)).traced surroundings.traced () slots channels ids
      (TiedTo params slots channels ids) where
  plan_lt {ph s t} h i c hc := by
    obtain ⟨x, hx, h⟩ := h
    exact (planOf_eq_some h.linked.left (hx ▸ hc)).1
  read {ph s t i} h hi := by
    obtain ⟨x, hx, h⟩ := h
    refine (Shelf.ends_read _).2 ⟨_, h.linked.left.deviceAt_eq hi, ?_⟩
    refine (Shelf.ends_read _).2 ⟨_, h.linked.right.deviceAt_eq hi, ?_⟩
    exact ⟨hx ▸ h.linked.alike hi, x, hx, h⟩
  update {ph s t i β f} h hi hf := by
    obtain ⟨x, hx, h⟩ := h
    refine (Shelf.ends_update _).2 ⟨_, _, _, h.linked.left.deviceAt_eq hi, rfl, ?_⟩
    refine (Shelf.ends_update _).2 ⟨_, _, _, h.linked.right.deviceAt_eq hi, rfl, ?_⟩
    refine ⟨(hf.bare_congr (h.linked.bare_deviceAt_eq hi)).1, x, hx, ?_⟩
    exact h.replace (h.linked.routine hf i) rfl
  uniform {ph s t} h := by
    obtain ⟨x, hx, h⟩ := h
    refine twin_outside.2 (h.linked.twin_uniform.mono ?_)
    rintro u _ p q ⟨rfl, hc, hlinked⟩
    exact ⟨rfl, x, hx, h.replace hlinked hc⟩
  note {ph s t} n h := by
    obtain ⟨x, hx, h⟩ := h
    exact ⟨rfl, rfl, x, hx, h.replace (h.linked.enter n) rfl⟩
  boundary {plan asn s t} h hne := by
    obtain ⟨x, hx, h⟩ := h
    refine (h.twin_boundary hids hsound hne).mono ?_
    rintro _ _ s' t' ⟨x', h'⟩
    exact ⟨_, x', rfl, h'⟩
  outcome {plan asn s t c} success h hne hplan := by
    obtain ⟨x, rfl, h⟩ := h
    refine (h.twin_outcome hids hsound hslots hne hplan success).mono ?_
    exact fun _ _ s' t' h' => ⟨x, rfl, h'⟩
  overheard {ph s t} slot h := by
    obtain ⟨l, p⟩ := s
    obtain ⟨l', q⟩ := t
    obtain ⟨x, hx, h⟩ := h
    show Twin (delivering (.overheard () slot) (surroundings.overheard () slot))
      (delivering (.overheard () slot) (surroundings.overheard () slot)) (l, p) (l', q) _
    refine twin_delivering.2 ?_
    exact ⟨x, hx, h.quiet h.linked rfl (by simp) (by simp)⟩
  observe {ph s t} o r h hkey := by
    obtain ⟨x, hx, h⟩ := h
    refine twin_delivering.2 ((h.linked.twin_observe hkey).mono ?_)
    rintro _ _ p q ⟨hc, hlinked⟩
    exact ⟨x, hx, h.quiet hlinked hc (by simp) (by simp)⟩
  passed {plan asn begun s t} h hpass := by
    obtain ⟨x, hx, h⟩ := h
    exact ⟨x, hx, { h with chronicle := h.chronicle.passed hpass }⟩

theorem TiedTo.twin_runSlots [Generator ρ α] (hsound : Generator.Sound ρ)
    {net : Network Nat Unit α} (hids : net.macs.Nodup) (hnet : net.Regular slots channels)
    {plan : Nat → Option Nat}
    (h : TiedTo params slots channels net.macs ⟨plan, net.asn, false⟩ s t) (n : Nat) :
    Twin (Network.runSlots surroundings.traced n) (Network.runSlots surroundings.traced n)
      (net, s) (net, t) fun _ _ => Sharing { net with asn := net.asn + n } fun s' t' =>
        ∃ plan, TiedTo params slots channels net.macs ⟨plan, net.asn + n, false⟩ s' t' :=
  (coupled_traced hids hsound hnet.slots_pos).twin_runSlots n hnet h

end TschLearning.Pan
