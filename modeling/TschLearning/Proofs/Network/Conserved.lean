import TschLearning.Proofs.Network.Protocol

/-! Who transmits in a slot, which transmissions succeed, and what becomes of the frames. Handlers
edit devices through their interface at the start of a slot, and callers do so between the slots.
Then every frame that was ever put into a queue was transmitted or still waits, in order. -/

namespace TschLearning

variable {μ κ ο σ α : Type}

def Deed.drawn? : Deed μ κ ο α → Option α
  | .drawn u => some u
  | _ => none

theorem Deed.filterMap_drawn?_map (us : List α) :
    (us.map .drawn : List (Deed μ κ ο α)).filterMap Deed.drawn? = us := by
  rw [List.filterMap_map]
  exact List.filterMap_some

theorem Deed.filterMap_drawn?_delivered {β : Type} (items : List β) (f : β → Delivery μ κ ο) :
    (items.map fun b => (.delivered (f b) none : Deed μ κ ο α)).filterMap Deed.drawn? = [] := by
  rw [List.filterMap_map]
  exact List.filterMap_eq_nil_iff.2 fun _ _ => rfl

variable [Arith α]

namespace Turn

variable {traffic : α} {slot : Nat} {t : Turn μ κ α}

theorem queue_supplied : (t.supplied traffic).queue = t.mac.queue ++ t.generated traffic := by
  unfold supplied generated
  split
  · rfl
  · rw [List.append_nil]

theorem Fair.draw_eq_none (h : t.Fair traffic slot) (hchannel : ¬(t.channel? slot).isSome = true) :
    t.draw = none :=
  Option.not_isSome_iff_eq_none.1 fun hsome => hchannel (h.1 hsome).1

/-- Without a channel a device gets no frame of its own. -/
theorem Fair.generated_eq_nil (h : t.Fair traffic slot)
    (hchannel : ¬(t.channel? slot).isSome = true) : t.generated traffic = [] := by
  simp [generated, gains, h.draw_eq_none hchannel]

/-- A device sends its first frame, if it has a channel, and keeps the others. -/
theorem Fair.queue_eq (h : t.Fair traffic slot) :
    t.mac.queue ++ t.generated traffic
      = (t.sent? traffic slot).toList ++ (t.left traffic slot).queue := by
  unfold sent? left
  cases hchannel : t.channel? slot with
  | none => simp [h.generated_eq_nil (by simp [hchannel])]
  | some c =>
    have hpop := (t.supplied traffic).queue_eq_popFrame
    rw [Mac.popFrame_fst] at hpop
    rw [← queue_supplied]
    exact hpop

theorem sent?_isSome_iff :
    (t.sent? traffic slot).isSome = true ↔
      ∃ channel, t.transmission? traffic slot = some (t.device, channel) := by
  unfold transmission? sent?
  cases t.channel? slot with
  | none => simp
  | some c => cases (t.supplied traffic).queue <;> simp

omit [Arith α] in
/-- Every device has one turn. -/
theorem exists_filter_eq [DecidableEq μ] {turns : List (Turn μ κ α)}
    (hnodup : (turns.map (·.device)).Nodup) {i : μ} (hi : i ∈ turns.map (·.device)) :
    ∃ t ∈ turns, t.device = i ∧ turns.filter (·.device = i) = [t] := by
  induction turns with
  | nil => cases hi
  | cons t rest ih =>
    rw [List.map_cons, List.nodup_cons] at hnodup
    rw [List.map_cons, List.mem_cons] at hi
    by_cases ht : t.device = i
    · have hrest : rest.filter (·.device = i) = [] := by
        apply List.filter_eq_nil_iff.2
        intro t' ht' hdevice
        apply hnodup.1
        rw [ht, ← of_decide_eq_true hdevice]
        exact List.mem_map_of_mem ht'
      refine ⟨t, List.mem_cons_self, ht, ?_⟩
      rw [List.filter_cons, hrest, if_pos (decide_eq_true ht)]
    · obtain ⟨t', ht', hdevice, hfilter⟩ := ih hnodup.2 (hi.resolve_left (Ne.symm ht))
      refine ⟨t', List.mem_cons_of_mem t ht', hdevice, ?_⟩
      rw [List.filter_cons_of_neg (by simpa using ht), hfilter]

/-- All that is drawn in a turn is the number for a frame. -/
theorem Fair.filterMap_drawn? (h : t.Fair traffic slot) :
    (t.deeds traffic slot : List (Deed μ κ ο α)).filterMap Deed.drawn? = t.draw.toList := by
  unfold deeds
  split
  · have hsets : (if t.gains traffic then [Deed.set t.device (t.supplied traffic)] else [] :
        List (Deed μ κ ο α)).filterMap Deed.drawn? = [] := by
      split <;> rfl
    rw [List.filterMap_append, List.filterMap_append, hsets, Deed.filterMap_drawn?_map]
    simp [Deed.drawn?]
  · next hchannel =>
    rw [h.draw_eq_none hchannel]
    rfl

end Turn

/-- All that is drawn for a confirmation is the number for interference. -/
theorem Confirmation.filterMap_drawn?_deeds {net : Network μ ο α} {directory : Directory μ κ}
    {c : Confirmation μ α} {asn slot : Nat} :
    (c.deeds net asn slot directory).filterMap Deed.drawn? = c.draw.toList := by
  unfold deeds
  simp only [List.filterMap_append, Deed.filterMap_drawn?_map]
  rw [Deed.filterMap_drawn?_delivered, Deed.filterMap_drawn?_delivered, List.append_nil,
    List.append_nil]

namespace Episode

variable [DecidableEq μ]

/-- The frames of its own that a device gets in the slot. -/
def generated (traffic : α) (i : μ) (e : Episode μ κ σ α) : List Frame :=
  (e.turns.filter (·.device = i)).flatMap (·.generated traffic)

/-- The frames that a device transmits in the slot. -/
def transmitted (slots : Nat) (traffic : α) (i : μ) (e : Episode μ κ σ α) : List Frame :=
  (e.turns.filter (·.device = i)).filterMap (·.sent? traffic (e.slot slots))

variable {env : Surroundings μ κ ο σ α} {net : Network μ ο α} {slots : Nat} {traffic : α}
  {directory : Directory μ κ} {e : Episode μ κ σ α}

/-- What a slot comes to: who transmits, what succeeds and what is drawn. -/
structure Settled [DecidableEq κ] (env : Surroundings μ κ ο σ α) (net : Network μ ο α)
    (slots : Nat) (traffic : α) (directory : Directory μ κ) (e : Episode μ κ σ α) : Prop where
  -- those transmit who have a channel and a frame once the boundaries were delivered
  transmits_iff : ∀ i channel, (i, channel) ∈ e.confirmations.map (fun c => (c.sender, c.channel)) ↔
    i ∈ net.macs ∧ ∃ m, env.macs.get? i e.opened = some m ∧
      m.channelIn (e.slot slots) = some channel ∧ m.queue ++ e.generated traffic i ≠ []
  sends_iff : ∀ i ∈ net.macs, i ∈ e.confirmations.map (·.sender) ↔
    e.transmitted slots traffic i ≠ []
  one_frame : ∀ i ∈ net.macs, (e.transmitted slots traffic i).length ≤ 1
  senders_sublist : (e.confirmations.map (·.sender)).Sublist net.macs
  success_iff : ∀ c ∈ e.confirmations,
    (c.record net e.asn (e.slot slots) directory).success = true ↔
      (∀ d ∈ e.confirmations, d.channel = c.channel → d.sender = c.sender) ∧
        ∃ u p, c.draw = some u ∧ net.interference.probability? c.channel = some p ∧
          Arith.lt u p = false
  -- at most one transmission on a channel succeeds
  one_success : ∀ c ∈ e.confirmations, ∀ d ∈ e.confirmations, c.channel = d.channel →
    (c.record net e.asn (e.slot slots) directory).success = true →
    (d.record net e.asn (e.slot slots) directory).success = true → c.sender = d.sender
  -- a number is drawn for a transmission if no other is on its channel
  drawn_iff : ∀ c ∈ e.confirmations, c.draw.isSome = true ↔
    ∀ d ∈ e.confirmations, d.channel = c.channel → d.sender = c.sender
  -- the numbers for frames are drawn first, then those for transmissions, in order
  drawn_eq : (e.deeds env net slots traffic directory).filterMap Deed.drawn?
    = e.turns.filterMap (·.draw) ++ e.confirmations.filterMap (·.draw)

omit [DecidableEq μ] in
theorem success_record_iff {c : Confirmation μ α} {asn slot : Nat} :
    (c.record net asn slot directory).success = true ↔
      ∃ u p, c.draw = some u ∧ net.interference.probability? c.channel = some p ∧
        Arith.lt u p = false := by
  unfold TransmissionRecord.success Confirmation.record Confirmation.status
  cases c.draw with
  | none => simp
  | some u =>
    cases net.interference.probability? c.channel with
    | none => simp
    | some p => cases hlt : Arith.lt u p <;> simp [hlt]

namespace Resolved

variable (h : e.Resolved env net slots traffic) (hnodup : net.macs.Nodup)
include h hnodup

theorem exists_turn {i : μ} (hi : i ∈ net.macs) : ∃ t ∈ e.turns, t.device = i ∧
    e.generated traffic i = t.generated traffic ∧
    e.transmitted slots traffic i = (t.sent? traffic (e.slot slots)).toList := by
  have hnodup' : (e.turns.map (·.device)).Nodup := h.device_eq ▸ hnodup
  obtain ⟨t, ht, hdevice, hfilter⟩ := Turn.exists_filter_eq hnodup' (h.device_eq ▸ hi)
  refine ⟨t, ht, hdevice, ?_, ?_⟩
  · rw [generated, hfilter, List.flatMap_singleton]
  · rw [transmitted, hfilter, List.filterMap_cons]
    cases t.sent? traffic (e.slot slots) <;> rfl

theorem transmits_iff (i : μ) (channel : Int) :
    (i, channel) ∈ e.confirmations.map (fun c => (c.sender, c.channel)) ↔
      i ∈ net.macs ∧ ∃ m, env.macs.get? i e.opened = some m ∧
        m.channelIn (e.slot slots) = some channel ∧ m.queue ++ e.generated traffic i ≠ [] := by
  rw [h.confirmed, List.mem_filterMap]
  constructor
  · rintro ⟨t, ht, htransmission⟩
    obtain ⟨rfl, hchannel, hqueue⟩ := Turn.transmission?_eq_some_iff.1 htransmission
    have hi : t.device ∈ net.macs := h.device_eq ▸ List.mem_map_of_mem ht
    obtain ⟨t', ht', hdevice, hgenerated, -⟩ := h.exists_turn hnodup hi
    obtain rfl : t' = t := List.inj_on_of_nodup_map (h.device_eq ▸ hnodup) ht' ht hdevice
    refine ⟨hi, t'.mac, h.mac_eq t' ht, hchannel, ?_⟩
    rwa [hgenerated, ← Turn.queue_supplied]
  · rintro ⟨hi, m, hm, hchannel, hqueue⟩
    obtain ⟨t, ht, rfl, hgenerated, -⟩ := h.exists_turn hnodup hi
    obtain rfl := Option.some.inj ((h.mac_eq t ht).symm.trans hm)
    refine ⟨t, ht, Turn.transmission?_eq_some_iff.2 ⟨rfl, hchannel, ?_⟩⟩
    rwa [Turn.queue_supplied, ← hgenerated]

theorem sends_iff {i : μ} (hi : i ∈ net.macs) :
    i ∈ e.confirmations.map (·.sender) ↔ e.transmitted slots traffic i ≠ [] := by
  obtain ⟨t, ht, rfl, -, htransmitted⟩ := h.exists_turn hnodup hi
  have hsent : e.transmitted slots traffic t.device ≠ [] ↔
      (t.sent? traffic (e.slot slots)).isSome = true := by
    rw [htransmitted]
    cases t.sent? traffic (e.slot slots) <;> simp
  have hsenders : e.confirmations.map (·.sender)
      = (e.turns.filterMap (·.transmission? traffic (e.slot slots))).map (·.1) := by
    rw [← h.confirmed, List.map_map]
    rfl
  rw [hsent, hsenders, Turn.sent?_isSome_iff, List.mem_map]
  constructor
  · rintro ⟨⟨_, channel⟩, htransmission, rfl⟩
    obtain ⟨t', ht', htransmission⟩ := List.mem_filterMap.1 htransmission
    have hdevice := (Turn.transmission?_eq_some_iff.1 htransmission).1
    obtain rfl : t' = t := List.inj_on_of_nodup_map (h.device_eq ▸ hnodup) ht' ht hdevice
    exact ⟨channel, htransmission⟩
  · rintro ⟨channel, htransmission⟩
    exact ⟨_, List.mem_filterMap.2 ⟨t, ht, htransmission⟩, rfl⟩

theorem one_frame {i : μ} (hi : i ∈ net.macs) : (e.transmitted slots traffic i).length ≤ 1 := by
  obtain ⟨t, -, -, -, htransmitted⟩ := h.exists_turn hnodup hi
  rw [htransmitted]
  cases t.sent? traffic (e.slot slots) <;> simp

omit hnodup in
theorem drawn_eq [DecidableEq κ] :
    (e.deeds env net slots traffic directory).filterMap Deed.drawn?
      = e.turns.filterMap (·.draw) ++ e.confirmations.filterMap (·.draw) := by
  have hannouncements : (e.announcements env net).filterMap Deed.drawn? = [] := by
    apply List.filterMap_eq_nil_iff.2
    intro d hd
    obtain ⟨i, -, hset⟩ := List.mem_filterMap.1 hd
    obtain ⟨m, -, rfl⟩ := Option.map_eq_some_iff.1 hset
    rfl
  have hboundaries : (e.boundaries net directory).filterMap Deed.drawn? = [] :=
    Deed.filterMap_drawn?_delivered _ _
  have hoverhearings : (e.overhearings net slots directory).filterMap Deed.drawn? = [] := by
    unfold overhearings
    split
    · rfl
    · exact Deed.filterMap_drawn?_delivered _ _
  have hturns : (e.turns.flatMap (·.deeds traffic (e.slot slots)) :
      List (Deed μ κ ο α)).filterMap Deed.drawn? = e.turns.filterMap (·.draw) := by
    rw [List.filterMap_flatMap, List.filterMap_eq_flatMap_toList]
    exact List.flatMap_congr fun t ht => (h.fair t ht).filterMap_drawn?
  have hconfirmations : (e.confirmations.flatMap
      (·.deeds net e.asn (e.slot slots) directory)).filterMap Deed.drawn?
        = e.confirmations.filterMap (·.draw) := by
    rw [List.filterMap_flatMap, List.filterMap_eq_flatMap_toList]
    exact List.flatMap_congr fun c _ => Confirmation.filterMap_drawn?_deeds
  simp only [deeds, List.filterMap_append, hannouncements, hboundaries, hoverhearings, hturns,
    hconfirmations, List.nil_append, List.append_nil]

theorem settled [DecidableEq κ] : e.Settled env net slots traffic directory := by
  have hsub : (e.confirmations.map (·.sender)).Sublist net.macs := by
    have hsub := Turn.sublist_transmissions traffic (e.slot slots) e.turns
    rw [← h.confirmed, h.device_eq, List.map_map] at hsub
    exact hsub
  have halone : ∀ c ∈ e.confirmations,
      (c.record net e.asn (e.slot slots) directory).success = true →
      ∀ d ∈ e.confirmations, d.channel = c.channel → d.sender = c.sender := by
    intro c hc hsuccess
    obtain ⟨u, p, hdraw, -⟩ := success_record_iff.1 hsuccess
    exact (h.drawn_iff c hc).1 (by rw [hdraw]; rfl)
  refine ⟨h.transmits_iff hnodup, fun i => h.sends_iff hnodup, fun i => h.one_frame hnodup, hsub,
    ?_, ?_, h.drawn_iff, h.drawn_eq⟩
  · intro c hc
    exact ⟨fun hsuccess => ⟨halone c hc hsuccess, success_record_iff.1 hsuccess⟩,
      fun hboth => success_record_iff.2 hboth.2⟩
  · intro c hc d hd hchannel _ hsuccess
    exact halone d hd hsuccess c hc hchannel

/-- What waits at the start of a slot, is asked for at its boundary or is generated is transmitted
in the slot, or it waits at the end, in order. -/
theorem queue_eq (hmoved : e.Moved env net slots traffic Mac.Edits Eq) {i : μ} (hi : i ∈ net.macs)
    {m : Mac κ} (hm : env.macs.get? i e.start = some m) :
    ∃ asked opened finish, env.macs.get? i e.opened = some opened ∧
      (m.reached e.asn).Edited asked opened ∧ env.macs.get? i e.finish = some finish ∧
      m.queue ++ asked ++ e.generated traffic i
        = e.transmitted slots traffic i ++ finish.queue := by
  obtain ⟨t, ht, rfl, hgenerated, htransmitted⟩ := h.exists_turn hnodup hi
  obtain ⟨opened, hopened, asked, hedited⟩ := hmoved.opened t.device hi m hm
  obtain rfl : opened = t.mac := Option.some.inj (hopened.symm.trans (h.mac_eq t ht))
  obtain ⟨_, hfinish, rfl⟩ := hmoved.finish t ht
  refine ⟨asked, t.mac, _, hopened, hedited, hfinish, ?_⟩
  have hqueue : m.queue ++ asked = t.mac.queue := hedited.queue_eq.symm
  rw [hqueue, hgenerated, htransmitted]
  exact (h.fair t ht).queue_eq

end Resolved

/-- The frames that are put into the queue of a device in a run: before every slot by callers, at
its boundary by the sinks, and in the slot by the network. -/
inductive Enqueued (shelf : Shelf μ (Mac κ) σ) (traffic : α) (i : μ) :
    σ → List (Episode μ κ σ α) → List Frame → Prop where
  | nil (s) : Enqueued shelf traffic i s [] []
  | cons {s e rest requested asked later before start opened}
      (hs : shelf.get? i s = some before) (hstart : shelf.get? i e.start = some start)
      (hrequested : before.Edited requested start)
      (hopened : shelf.get? i e.opened = some opened)
      (hasked : (start.reached e.asn).Edited asked opened)
      (hlater : Enqueued shelf traffic i e.finish rest later) :
      Enqueued shelf traffic i s (e :: rest) (requested ++ asked ++ e.generated traffic i ++ later)

/-- In a run a device transmits what waits in its queue and is put there, in order, and the rest
still waits. -/
theorem exists_enqueued {episodes : List (Episode μ κ σ α)} {s u : σ} (hnodup : net.macs.Nodup)
    (hall : ∀ e ∈ episodes, e.Resolved env net slots traffic ∧
      e.Moved env net slots traffic Mac.Edits Eq)
    (hchain : Chain env.macs net.macs Mac.Edits episodes s u) {i : μ} (hi : i ∈ net.macs)
    {m : Mac κ} (hm : env.macs.get? i s = some m) :
    ∃ enqueued m', Enqueued env.macs traffic i s episodes enqueued ∧
      env.macs.get? i u = some m' ∧
      m.queue ++ enqueued = episodes.flatMap (·.transmitted slots traffic i) ++ m'.queue := by
  induction episodes generalizing s m with
  | nil =>
    obtain rfl : s = u := hchain
    exact ⟨[], m, .nil s, hm, by simp⟩
  | cons e rest ih =>
    rw [List.forall_mem_cons] at hall
    obtain ⟨start, hstart, requested, hrequested⟩ := hchain.1 i hi m hm
    obtain ⟨asked, opened, finish, hopened, hasked, hfinish, hslot⟩ :=
      hall.1.1.queue_eq hnodup hall.1.2 hi hstart
    obtain ⟨later, m', hlater, hm', hrest⟩ := ih hall.2 hchain.2 hfinish
    refine ⟨_, m', .cons hm hstart hrequested hopened hasked hlater, hm', ?_⟩
    calc m.queue ++ (requested ++ asked ++ e.generated traffic i ++ later)
        = start.queue ++ asked ++ e.generated traffic i ++ later := by
          simp only [hrequested.queue_eq, List.append_assoc]
      _ = e.transmitted slots traffic i ++ (finish.queue ++ later) := by
          rw [hslot, List.append_assoc]
      _ = (e :: rest).flatMap (·.transmitted slots traffic i) ++ m'.queue := by
          rw [hrest, List.flatMap_cons, List.append_assoc]

end Episode

namespace Network

open TschLearning.Action

variable [DecidableEq μ] [DecidableEq κ] [Journal σ] {env : Surroundings μ κ ο σ α}
  {slots channels : Nat} {directory : Directory μ κ} {net : Network μ ο α} {q : α} {s : σ}

/-- In a run whose devices are edited through their interface alone, by callers before the slots and
by sinks at the boundaries, every slot comes to what its transmissions say, and no frame is lost,
doubled or overtaken, unless a handler of an event raises a fault. -/
theorem runAmid_conserves (h : env.Tame net.macs Mac.Edits Eq) (hnet : net.Regular slots channels)
    (hq : net.traffic = .ok q) (hnodup : net.macs.Nodup) {callers : List (Action σ Unit)}
    (hcallers : ∀ x ∈ callers, env.macs.Alters net.macs Mac.Edits x)
    (hs : env.macs.Attached slots channels net.macs directory s) :
    EndsOr (fun p => Raised p.2) (runAmid env.logged (callers.map outside)) (net, [], s)
      fun _ p =>
        p.1 = { net with asn := net.asn + callers.length } ∧
        runAmid env callers (net, s) = .ok () (p.1, p.2.2) ∧
        ∃ episodes : List (Episode μ κ σ α),
          p.2.1 = episodes.flatMap (·.deeds env net slots q directory) ∧
          episodes.map (·.asn) = List.range' net.asn callers.length ∧
          (∀ e ∈ episodes, e.Valid env net slots q ∧ e.Settled env net slots q directory) ∧
          Episode.Chain env.macs net.macs Mac.Edits episodes s p.2.2 ∧
          ∀ i ∈ net.macs, ∃ m m' enqueued, env.macs.get? i s = some m ∧
            env.macs.get? i p.2.2 = some m' ∧
            Episode.Enqueued env.macs q i s episodes enqueued ∧
            m.queue ++ enqueued = episodes.flatMap (·.transmitted slots q i) ++ m'.queue := by
  refine (endsOr_runAmid h (Mac.gentle_edits κ slots channels) (Mac.gentle_eq κ slots channels)
    hnet hq hnodup hcallers net.asn hs).ran.mono ?_
  rintro _ ⟨_, _, t⟩ ⟨⟨rfl, episodes, hasns, hall, hchain, rfl⟩, hran⟩
  refine ⟨rfl, runAmid_of_logged hran, episodes, List.nil_append _, hasns, ?_, hchain, ?_⟩
  · intro e he
    have hvalid := (hall e he).1
    exact ⟨hvalid, hvalid.toResolved.settled hnodup⟩
  · intro i hi
    obtain ⟨m, hm, -⟩ := hs i hi
    have hall' := fun e he => (hall e he).imp_left Episode.Valid.toResolved
    obtain ⟨enqueued, m', henqueued, hm', hqueue⟩ :=
      Episode.exists_enqueued hnodup hall' hchain hi hm
    exact ⟨m, m', enqueued, hm, hm', henqueued, hqueue⟩

end Network

namespace Star

open TschLearning.Action Network

theorem runAmid_conserves_shared :
    Ends (runAmid surroundings.logged (callers.map outside)) (shared.1, [], shared.2) fun _ p =>
      p.1 = { shared.1 with asn := 3 } ∧
      ∃ episodes : List (Episode Nat Nat (Star Scripted Float) Float),
        episodes.map (·.asn) = [0, 1, 2] ∧
        (∀ e ∈ episodes, e.Settled surroundings shared.1 2 0 directory) ∧
        ∀ i ∈ shared.1.macs, ∃ m m' enqueued, shelf.get? i shared.2 = some m ∧
          shelf.get? i p.2.2 = some m' ∧
          Episode.Enqueued shelf 0 i shared.2 episodes enqueued ∧
          m.queue ++ enqueued = episodes.flatMap (·.transmitted 2 0 i) ++ m'.queue := by
  refine ((runAmid_conserves (tame_surroundings shared.1.macs) regular_shared rfl (by decide)
    alters_callers attached_shared).ends ends_shared).mono ?_
  rintro _ p ⟨hnet, -, episodes, -, hasns, hall, -, hqueues⟩
  exact ⟨hnet, episodes, hasns, fun e he => (hall e he).2, hqueues⟩

end Star
end TschLearning
