import TschLearning.Proofs.Network.Watched
import TschLearning.Proofs.Scenario.Counted

/-! Stars of devices that may transmit in every slot, with a scheduler each. In every slot each of
the devices is in order, whatever happens to the others. -/

namespace TschLearning

namespace Star

open TschLearning.Action SlotSelection
open Function (update update_self update_of_ne update_eq_self)

variable {ρ : Type} {slots senders i m asn : Nat} {x y : Stage} {stage : Nat → Stage}
  {p q : List (Event ρ Float) × Watched ρ Float} {trace d : List (Event ρ Float)}
  {left : List (Nat × Frame)} {s t : Star ρ Float} {mac : Mac Nat} {a : SlotSelection Nat Float}

/-- A device and its scheduler in a slot, together with what was written down. -/
def InOrder (slots i asn : Nat) (x : Stage) (p : List (Event ρ Float) × Watched ρ Float) : Prop :=
  ∃ mac a g, p.2.2.macs[i]? = some mac ∧ p.2.2.schedulers[i]? = some (a, g) ∧
    Fitted slots i mac a ∧ Paced slots i asn x p.2.1 mac a ∧
    Counted slots i x p.2.2.statistics p.1 mac a

theorem InOrder.exists_of_device (h : InOrder slots i asn x p) (hmac : p.2.2.macs[i]? = some mac) :
    ∃ a g, p.2.2.schedulers[i]? = some (a, g) ∧ Fitted slots i mac a ∧
      Paced slots i asn x p.2.1 mac a ∧ Counted slots i x p.2.2.statistics p.1 mac a := by
  obtain ⟨mac', a, g, hmac', h⟩ := h
  obtain rfl := Option.some.inj (hmac'.symm.trans hmac)
  exact ⟨a, g, h⟩

/-- Nothing has happened to a device and its scheduler, and nothing was counted for them. -/
structure Untouched (i : Nat) (p q : List (Event ρ Float) × Watched ρ Float) : Prop where
  macs_eq : q.2.2.macs[i]? = p.2.2.macs[i]?
  schedulers_eq : q.2.2.schedulers[i]? = p.2.2.schedulers[i]?
  left_eq : q.2.1.lookup i = p.2.1.lookup i
  attempts_eq : q.2.2.statistics.attempts.count (senderKey i)
    = p.2.2.statistics.attempts.count (senderKey i)
  successes_eq : q.2.2.statistics.successes.count (senderKey i)
    = p.2.2.statistics.successes.count (senderKey i)
  trace_eq : ∃ d, q.1 = p.1 ++ d ∧ ∀ e ∈ d, ¬e.delivery.Tells i

theorem InOrder.of_untouched (h : InOrder slots i asn x p) (hq : Untouched i p q) :
    InOrder slots i asn x q := by
  obtain ⟨mac, a, g, hmac, hi, hfitted, hpaced, hcounted⟩ := h
  obtain ⟨d, htrace, hd⟩ := hq.trace_eq
  refine ⟨mac, a, g, hq.macs_eq.trans hmac, hq.schedulers_eq.trans hi, hfitted,
    hpaced.of_lookup_eq hq.left_eq, ?_⟩
  rw [htrace]
  exact (hcounted.extend hd).of_counts hq.attempts_eq hq.successes_eq

/-- Nothing but the journal and the generator of the network has changed. -/
theorem Untouched.of_eq (hmacs : t.macs = s.macs) (hschedulers : t.schedulers = s.schedulers)
    (hstatistics : t.statistics = s.statistics) (i : Nat) :
    Untouched i (trace, left, s) (trace, left, t) where
  macs_eq := congrArg (·[i]?) hmacs
  schedulers_eq := congrArg (·[i]?) hschedulers
  left_eq := rfl
  attempts_eq := by rw [hstatistics]
  successes_eq := by rw [hstatistics]
  trace_eq := ⟨[], (List.append_nil _).symm, List.forall_mem_nil _⟩

theorem Untouched.put {left' : List (Nat × Frame)} (him : i ≠ m)
    (hleft : left'.lookup i = left.lookup i) (mac : Mac Nat) :
    Untouched i (trace, left, s) (trace, left', shelf.put m mac s) where
  macs_eq := getElem?_put_of_ne him.symm mac s
  schedulers_eq := rfl
  left_eq := hleft
  attempts_eq := rfl
  successes_eq := rfl
  trace_eq := ⟨[], (List.append_nil _).symm, List.forall_mem_nil _⟩

/-- A delivery to another scheduler. -/
theorem Turned.untouched (h : Turned m mac a s t) (him : i ≠ m) {e : Event ρ Float}
    (he : ¬e.delivery.Tells i) : Untouched i (trace, left, s) (trace ++ [e], left, t) where
  macs_eq := by
    show t.macs[i]? = _
    rw [h.macs_eq, Array.getElem?_setIfInBounds_ne him.symm]
  schedulers_eq := by
    obtain ⟨g, hg⟩ := h.schedulers_eq
    show t.schedulers[i]? = _
    rw [hg, Array.getElem?_setIfInBounds_ne him.symm]
  left_eq := rfl
  attempts_eq := by
    show t.statistics.attempts.count _ = _
    rw [h.statistics_eq]
  successes_eq := by
    show t.statistics.successes.count _ = _
    rw [h.statistics_eq]
  trace_eq := ⟨[e], rfl, List.forall_mem_singleton.2 he⟩

theorem Turned.inOrder {g : ρ} {mac' : Mac Nat} {b : SlotSelection Nat Float}
    (h : Turned i mac' b s t) (hmac : s.macs[i]? = some mac)
    (hi : s.schedulers[i]? = some (a, g)) (hfitted : Fitted slots i mac' b)
    (hpaced : Paced slots i asn x left mac' b)
    (hcounted : Counted slots i x s.statistics trace mac' b) :
    InOrder slots i asn x (trace, left, t) := by
  obtain ⟨hmacs, ⟨g', hschedulers⟩, hstatistics⟩ := h
  refine ⟨mac', b, g', ?_, ?_, hfitted, hpaced, ?_⟩
  · show t.macs[i]? = _
    rw [hmacs, Array.getElem?_setIfInBounds_self_of_lt (Array.getElem?_eq_some_iff.1 hmac).1]
  · show t.schedulers[i]? = _
    rw [hschedulers, Array.getElem?_setIfInBounds_self_of_lt (Array.getElem?_eq_some_iff.1 hi).1]
  · exact hstatistics ▸ hcounted

/-- All devices are in order. -/
def AllInOrder (senders slots asn : Nat) (stage : Nat → Stage)
    (p : List (Event ρ Float) × Watched ρ Float) : Prop :=
  ∀ i < senders, InOrder slots i asn (stage i) p

namespace AllInOrder

theorem of_untouched (h : AllInOrder senders slots asn stage p) (hq : ∀ i, Untouched i p q) :
    AllInOrder senders slots asn stage q := fun i hi => (h i hi).of_untouched (hq i)

theorem update (h : AllInOrder senders slots asn stage p) (hm : InOrder slots m asn y q)
    (hq : ∀ i, i ≠ m → Untouched i p q) :
    AllInOrder senders slots asn (Function.update stage m y) q := by
  intro i hi
  by_cases him : i = m
  · subst him
    rwa [update_self]
  · rw [update_of_ne him]
    exact (h i hi).of_untouched (hq i him)

theorem enter (h : AllInOrder senders slots asn stage p) (n : Note) :
    AllInOrder senders slots asn stage (Journal.enter n p) :=
  h.of_untouched (.of_eq rfl rfl rfl)

theorem at_stage (h : AllInOrder senders slots asn stage p) (hm : m < senders)
    (hx : stage m = x) : InOrder slots m asn x p := hx ▸ h m hm

/-! ### Events -/

variable [Generator ρ Float]

theorem announce (h : AllInOrder senders slots asn stage p) (hm : m < senders)
    (hstage : stage m = .resting) (hmac : p.2.2.macs[m]? = some mac) :
    AllInOrder senders slots asn (Function.update stage m .announced)
      (surroundings.watched.traced.macs.put m { mac with asn := some asn } p) := by
  obtain ⟨trace, left, s⟩ := p
  obtain ⟨a, g, hi, hfitted, hpaced, hcounted⟩ := (h.at_stage hm hstage).exists_of_device hmac
  have hput : shelf.watched.put m { mac with asn := some asn } (left, s)
      = (left, shelf.put m { mac with asn := some asn } s) :=
    Shelf.watched_put_of_queue_eq hmac rfl
  show AllInOrder senders slots asn _
    (trace, shelf.watched.put m { mac with asn := some asn } (left, s))
  rw [hput]
  refine h.update ?_ fun i him => .put him rfl _
  exact ⟨_, a, g, getElem?_put_self hmac _, hi, hfitted.requeue mac.queue (some asn),
    hpaced.announce, hcounted.turn rfl rfl rfl⟩

theorem meets_boundary (h : AllInOrder senders slots asn stage p) (hpos : 0 < slots)
    (hm : m < senders) (hstage : stage m = .announced) (hasn : asn < 2 ^ 1023) :
    Meets False (surroundings.watched.traced.boundary m asn) p fun _ =>
      AllInOrder senders slots asn (Function.update stage m .begun) := by
  obtain ⟨trace, left, s⟩ := p
  obtain ⟨mac, a, g, hmac, hi, hfitted, hpaced, hcounted⟩ := h.at_stage hm hstage
  refine Surroundings.meets_watched_delivering.2 ?_
  refine (hfitted.meets_boundary hpos hmac hi (hpaced.later rfl) hasn).mono ?_
  rintro _ t ⟨mac', b, hbegins, hfitted', hturned⟩
  refine h.update ?_ fun i him => hturned.untouched him id
  refine hturned.inOrder hmac hi hfitted' (hpaced.begin hbegins) ?_
  exact (hcounted.begin hbegins).extend (List.forall_mem_singleton.2 id)

omit [Generator ρ Float] in
/-- A device has no link in the slot. -/
theorem pass (h : AllInOrder senders slots asn stage p) (hpos : 0 < slots) (hm : m < senders)
    (hstage : stage m = .begun) (hmac : p.2.2.macs[m]? = some mac)
    (hchannel : mac.channelFor (.int (asn % slots : Nat)) = .ok none) :
    AllInOrder senders slots asn (Function.update stage m .silent) p := by
  obtain ⟨a, g, hi, hfitted, hpaced, hcounted⟩ := (h.at_stage hm hstage).exists_of_device hmac
  rw [hfitted.channelFor_eq hpos] at hchannel
  refine h.update ?_ fun i _ => .of_eq rfl rfl rfl i
  exact ⟨mac, a, g, hmac, hi, hfitted, hpaced.pass (Except.ok.inj hchannel),
    hcounted.turn rfl rfl rfl⟩

theorem idle (h : AllInOrder senders slots asn stage p) (hm : m < senders)
    (hstage : stage m = .begun) (hmac : p.2.2.macs[m]? = some mac) (hqueue : mac.queue = []) :
    AllInOrder senders slots asn (Function.update stage m .silent)
      (surroundings.watched.traced.macs.put m mac p) := by
  obtain ⟨trace, left, s⟩ := p
  obtain ⟨a, g, hi, hfitted, hpaced, hcounted⟩ := (h.at_stage hm hstage).exists_of_device hmac
  show AllInOrder senders slots asn _ (trace, shelf.watched.put m mac (left, s))
  rw [Shelf.watched_put_of_queue_eq (show shelf.get? m s = some mac from hmac) rfl]
  refine h.update ?_ fun i him => .put him rfl _
  exact ⟨mac, a, g, getElem?_put_self hmac _, hi, hfitted, hpaced.idle hqueue,
    hcounted.turn rfl rfl rfl⟩

theorem send (h : AllInOrder senders slots asn stage p) (hpos : 0 < slots) (hm : m < senders)
    (hstage : stage m = .begun) (hmac : p.2.2.macs[m]? = some mac) {channel : Int}
    (hchannel : mac.channelFor (.int (asn % slots : Nat)) = .ok (some channel)) {f : Frame}
    {rest : List Frame} (hqueue : mac.queue = f :: rest) :
    AllInOrder senders slots asn (Function.update stage m (.sent channel))
      (surroundings.watched.traced.macs.put m { mac with queue := rest } p) := by
  obtain ⟨trace, left, s⟩ := p
  obtain ⟨a, g, hi, hfitted, hpaced, hcounted⟩ := (h.at_stage hm hstage).exists_of_device hmac
  rw [hfitted.channelFor_eq hpos] at hchannel
  have hlink := hfitted.link _ _ (Except.ok.inj hchannel)
  obtain ⟨rfl, hsent⟩ := hpaced.send hqueue hlink
  show AllInOrder senders slots asn _ (trace, shelf.watched.put m _ (left, s))
  rw [Shelf.watched_put_of_queue_cons (show shelf.get? m s = some mac from hmac) hqueue rfl]
  refine h.update ?_ fun i him => .put him ?_ _
  · refine ⟨_, a, g, getElem?_put_self hmac _, hi, hfitted.requeue [] mac.asn, hsent, ?_⟩
    refine hcounted.turn ?_ ?_ rfl
    · rw [hqueue]
      rfl
    · rw [hqueue]
      rfl
  · rw [lookup_cons_ite, if_neg him]

theorem meets_outcome (h : AllInOrder senders slots asn stage p) (hpos : 0 < slots)
    (hm : m < senders) {channel : Int} (hstage : stage m = .sent channel) (success : Bool) :
    Meets False (surroundings.watched.traced.outcome m (.int (asn % slots : Nat)) channel success) p
      fun _ => AllInOrder senders slots asn (Function.update stage m (.told channel success)) := by
  obtain ⟨trace, left, s⟩ := p
  obtain ⟨mac, a, g, hmac, hi, hfitted, hpaced, hcounted⟩ := h.at_stage hm hstage
  refine Surroundings.meets_watched_delivering.2 ?_
  refine (hfitted.meets_outcome hmac hi (Nat.mod_lt asn hpos) channel success).mono ?_
  rintro _ t ⟨b, hkin, hfitted', hturned⟩
  refine h.update ?_ fun i him => hturned.untouched him (Ne.symm him)
  exact hturned.inOrder hmac hi hfitted' ((hpaced.settle success).kin hkin)
    ((hcounted.settle hpaced hpos hmac hi).kin hkin)

theorem add_eq_ok (statistics : Statistics) {r : TransmissionRecord Nat}
    (hname : r.senderName = .text (senderName r.sender)) :
    statistics.add r
      = .ok (statistics.count (senderKey r.sender) r.senderName r.channel r.success) := by
  rw [Statistics.add, hname]
  rfl

theorem meets_observe (h : AllInOrder senders slots asn stage p) {r : TransmissionRecord Nat}
    (hm : r.sender < senders) (hstage : stage r.sender = .told r.channel r.success)
    (hname : r.senderName = .text (senderName r.sender)) :
    Meets False (surroundings.watched.traced.observe () r) p fun _ =>
      AllInOrder senders slots asn (Function.update stage r.sender .over) := by
  obtain ⟨trace, left, s⟩ := p
  obtain ⟨mac, a, g, hmac, hi, hfitted, hpaced, hcounted⟩ := h.at_stage hm hstage
  refine Surroundings.meets_watched_delivering.2 ?_
  unfold surroundings
  simp only [meets_bind, meets_get]
  rw [meets_ofExcept_of_eq_ok (add_eq_ok _ hname)]
  refine h.update ?_ fun i him => ?_
  · refine ⟨mac, a, g, hmac, hi, hfitted, hpaced.record, ?_⟩
    exact (hcounted.record _).extend (List.forall_mem_singleton.2 id)
  · exact {
      macs_eq := rfl
      schedulers_eq := rfl
      left_eq := rfl
      attempts_eq := attempts_count_of_ne him ..
      successes_eq := successes_count_of_ne him ..
      trace_eq := ⟨[_], rfl, List.forall_mem_singleton.2 id⟩ }

theorem meets_overheard (h : AllInOrder senders slots asn stage p) (hpos : 0 < slots)
    (hm : m < senders) :
    Meets False (surroundings.watched.traced.overheard m (.int (asn % slots : Nat))) p fun _ =>
      AllInOrder senders slots asn stage := by
  obtain ⟨trace, left, s⟩ := p
  obtain ⟨mac, a, g, hmac, hi, hfitted, hpaced, hcounted⟩ := h m hm
  refine Surroundings.meets_watched_delivering.2 ?_
  refine (hfitted.meets_overheard hmac hi (Nat.mod_lt asn hpos)).mono ?_
  rintro _ t ⟨b, hkin, hfitted', hturned⟩
  -- the device stays in the stage that it is in
  rw [← Function.update_eq_self m stage]
  refine h.update ?_ fun i him => hturned.untouched him id
  exact hturned.inOrder hmac hi hfitted' (hpaced.kin hkin)
    ((hcounted.kin hkin).extend (List.forall_mem_singleton.2 id))

omit [Generator ρ Float] in
theorem next (h : AllInOrder senders slots asn stage p)
    (hstage : ∀ i < senders, stage i = .silent ∨ stage i = .over) :
    AllInOrder senders slots (asn + 1) (fun _ => .resting) p := by
  intro i hi
  obtain ⟨mac, a, g, hmac, hsched, hfitted, hpaced, hcounted⟩ := h i hi
  refine ⟨mac, a, g, hmac, hsched, hfitted, hpaced.next (hstage i hi) hfitted.action_lt, ?_⟩
  rcases hstage i hi with hover | hover
  · rw [hover] at hcounted
    exact hcounted.turn rfl rfl rfl
  · rw [hover] at hcounted
    exact hcounted.turn rfl rfl rfl

end AllInOrder

/-! ### Slots -/

/-- The network of some devices on a single channel, in which nobody disturbs and nothing is sent
unasked. -/
structure Quiet (senders slots : Nat) (net : Network Nat Unit Float) : Prop where
  slots_eq : net.slots = .int slots
  interference_eq : net.interference = ⟨[0]⟩
  traffic_eq : net.traffic = .ok 0
  macs_eq : net.macs = List.range senders
  callees_eq : net.observers.callees = [()]

namespace Quiet

variable {net : Network Nat Unit Float}

theorem lt_of_mem (h : Quiet senders slots net) (hm : m ∈ net.macs) : m < senders := by
  rw [h.macs_eq] at hm
  exact List.mem_range.1 hm

theorem slotAt_eq (h : Quiet senders slots net) (hpos : 0 < slots) (asn : Nat) :
    Network.slotAt net.slots asn = .ok (.int (asn % slots : Nat)) := by
  rw [h.slots_eq]
  exact Network.Coupled.slotAt_eq_ok hpos asn

theorem eq_of_slotAt (h : Quiet senders slots net) (hpos : 0 < slots) {slot : Datum}
    (hslot : Network.slotAt net.slots asn = .ok slot) : slot = .int (asn % slots : Nat) :=
  Except.ok.inj (hslot.symm.trans (h.slotAt_eq hpos asn))

theorem pick_eq_ok (h : Quiet senders slots net) :
    ∃ p, net.interference.pick (.int 0) = .ok p := by
  rw [h.interference_eq]
  exact ⟨0, rfl⟩

end Quiet

/-- In every slot every event leaves all devices in order. -/
theorem staged_allInOrder [Generator ρ Float] {net : Network Nat Unit Float} (hpos : 0 < slots)
    (hnet : Quiet senders slots net) :
    Network.Staged False (surroundings (ρ := ρ)).watched.traced net some
      (fun m => .text (senderName m)) (2 ^ 1023) (AllInOrder senders slots) where
  nodup := hnet.macs_eq ▸ List.nodup_range
  traffic := ⟨0, hnet.traffic_eq, by decide +kernel⟩
  slots asn := .inl ⟨_, hnet.slotAt_eq hpos asn⟩
  device {asn stage p m} hs hm := by
    obtain ⟨mac, a, g, hmac, -, hfitted, -⟩ := hs m (hnet.lt_of_mem hm)
    constructor
    · intro hnone
      cases hmac.symm.trans hnone
    · intro mac' hmac'
      obtain rfl := Option.some.inj (hmac.symm.trans hmac')
      exact ⟨hfitted.sink_eq, hfitted.name_eq⟩
  announce hs hm hstage hmac := hs.announce (hnet.lt_of_mem hm) hstage hmac
  boundary {asn stage p k} hs hasn hany hstage := by
    obtain ⟨m, hm, hk⟩ := hany
    obtain rfl := Option.some.inj hk
    have hbegun : (fun i => if some i = some m then Stage.begun else stage i)
        = Function.update stage m .begun := by
      funext i
      simp only [Option.some.injEq, Function.update_apply]
    rw [hbegun]
    exact hs.meets_boundary hpos (hnet.lt_of_mem hm) (hstage m hm rfl) hasn
  channel {asn stage p m mac slot} hs hm hmac hslot := by
    obtain rfl := hnet.eq_of_slotAt hpos hslot
    obtain ⟨a, g, -, hfitted, -⟩ := (hs m (hnet.lt_of_mem hm)).exists_of_device hmac
    exact .inl ⟨_, hfitted.channelFor_eq hpos asn⟩
  pass hs hm hstage hmac hslot hchannel := by
    obtain rfl := hnet.eq_of_slotAt hpos hslot
    exact hs.pass hpos (hnet.lt_of_mem hm) hstage hmac hchannel
  idle hs hm hstage hmac hqueue := hs.idle (hnet.lt_of_mem hm) hstage hmac hqueue
  send hs hm hstage hmac hslot hchannel hqueue := by
    obtain rfl := hnet.eq_of_slotAt hpos hslot
    exact hs.send hpos (hnet.lt_of_mem hm) hstage hmac hchannel hqueue
  note n hs := (meets_note rfl).2 (hs.enter n)
  disturbed {asn stage p m channel} hs hm hstage := by
    obtain ⟨trace, left, s⟩ := p
    obtain ⟨mac, a, g, -, -, -, hpaced, -⟩ := hs.at_stage (hnet.lt_of_mem hm) hstage
    -- there is a probability for the one channel only
    obtain ⟨rfl, -⟩ := hpaced.flight channel rfl
    refine Interference.meets_disturbed (Surroundings.meets_watched_uniform.2 ?_)
      (.inl hnet.pick_eq_ok)
    exact Draws.meets_uniform _ _ fun _ _ => hs.of_untouched (.of_eq rfl rfl rfl)
  outcome success hs hm hstage hslot hk := by
    obtain rfl := Option.some.inj hk
    obtain rfl := hnet.eq_of_slotAt hpos hslot
    exact hs.meets_outcome hpos (hnet.lt_of_mem hm) hstage success
  unheard _ _ _ _ hnone := by cases hnone
  record text hs hm hasn hslot hname hstage := by
    unfold Notifier.trigger
    rw [hnet.callees_eq, meets_bind]
    refine (meets_note rfl).2 ?_
    show Meets False (surroundings.watched.traced.observe () _ >>= fun _ => pure ()) _ _
    rw [meets_bind]
    exact (hs.enter _).meets_observe (hnet.lt_of_mem hm) hstage hname
  overheard hs hm hstage hslot hk := by
    obtain rfl := Option.some.inj hk
    obtain rfl := hnet.eq_of_slotAt hpos hslot
    exact hs.meets_overheard hpos (hnet.lt_of_mem hm)
  passed hs hstage := hs.next fun i hi => hstage i (hnet.macs_eq ▸ List.mem_range.2 hi)

end Star
end TschLearning
