import TschLearning.Proofs.Scenario.Tuned
import TschLearning.Proofs.Scheduler.Aware

/-! A slot scheduler and the MAC layer of its device. The scheduler, its deployer and the MAC layer
each know of the one link of the device, and they agree on it whatever happens: a move that is
refused for want of room is taken back, and the link stays where it was. -/

namespace TschLearning

open TschLearning.Action

namespace Links

theorem distinct_singleton (slot channel : Int) : (⟨[(slot, channel)]⟩ : Links).Distinct :=
  List.nodup_singleton slot

/-- Schedules with at most one link have no order of entry. -/
theorem eq_of_channel?_eq {a b : Links} (ha : a.Distinct) (hb : b.Distinct) (hsize : b.size ≤ 1)
    (h : a.channel? = b.channel?) : a = b := by
  have hperm : a.entries.Perm b.entries := same_of_channel?_eq ha hb h
  obtain ⟨entries⟩ := b
  match entries, hsize with
  | [], _ => exact congrArg mk hperm.eq_nil
  | [e], _ => exact congrArg mk (List.perm_singleton.1 hperm)

end Links

namespace Mac

variable {κ : Type} {m m' : Mac κ} {slots : Nat} {channel : Int} {links : Links}

/-- The same links and the same room for them. -/
structure Resembles (m m' : Mac κ) : Prop where
  links_eq : m.links = m'.links
  slots_eq : m.slots = m'.slots
  channels_eq : m.channels = m'.channels
  capacity_eq : m.capacity = m'.capacity

/-- A MAC layer of a slotframe with a channel that has the given links, for which it has room. -/
structure Carries (slots : Nat) (channel : Int) (m : Mac κ) (links : Links) : Prop where
  slots_eq : m.slots = .int slots
  channel_mem : m.channels.Bounds channel
  sized : m.IsSized
  room : m.HasRoom links.channel?
  links_eq : m.links = links

theorem Carries.resembles (h : m.Carries slots channel links) (hm : m'.Resembles m) :
    m'.Carries slots channel links where
  slots_eq := hm.slots_eq.trans h.slots_eq
  channel_mem := hm.channels_eq ▸ h.channel_mem
  sized c hc := h.sized c (hm.capacity_eq ▸ hc)
  room l hl he n hn := by
    rw [hm.capacity_eq]
    exact h.room l hl he n hn
  links_eq := hm.links_eq.trans h.links_eq

theorem Carries.covers (h : m.Carries slots channel links) {slot : Nat} (hslot : slot < slots) :
    m.Covers slot channel := by
  refine ⟨?_, h.channel_mem⟩
  rw [h.slots_eq, Datum.bounds_int]
  omega

end Mac

/-- Whatever device is on the shelf in one state, one that resembles it is in the other. -/
def Shelf.Untouched {μ κ σ : Type} (shelf : Shelf μ (Mac κ) σ) (i : μ) (s t : σ) : Prop :=
  ∀ mac, shelf.get? i s = some mac → ∃ mac', shelf.get? i t = some mac' ∧ mac'.Resembles mac

theorem Shelf.Lawful.untouched_enter {μ κ σ ν : Type} [Journal σ] {shelf : Shelf μ (Mac κ) σ}
    {rest : σ → ν} (h : shelf.Lawful rest) (i : μ) (n : Note) (s : σ) :
    shelf.Untouched i s (Journal.enter n s) :=
  fun mac hmac => ⟨mac, (h.get?_enter i n s).trans hmac, rfl, rfl, rfl, rfl⟩

namespace LinkDeployer

variable {μ κ σ ν : Type} [DecidableEq μ] [Journal σ] {shelf : Shelf μ (Mac κ) σ} {rest : σ → ν}

/-- No link, or the one link of a slot. -/
def IsLink (slots : Nat) (channel : Int) (links : Links) : Prop :=
  links = .empty ∨ ∃ slot < slots, links = ⟨[((slot : Int), channel)]⟩

theorem IsLink.distinct {slots : Nat} {channel : Int} {links : Links}
    (h : IsLink slots channel links) : links.Distinct := by
  obtain rfl | ⟨slot, -, rfl⟩ := h
  · exact Links.distinct_empty
  · exact Links.distinct_singleton _ _

theorem IsLink.size_le_one {slots : Nat} {channel : Int} {links : Links}
    (h : IsLink slots channel links) : links.size ≤ 1 := by
  obtain rfl | ⟨slot, -, rfl⟩ := h
  · exact Nat.zero_le 1
  · exact Nat.le_refl 1

/-- A move of the one link of a device: the device has the link that was deployed last, also if the
move is given up. -/
theorem ends_deploy_link (hshelf : shelf.Lawful rest) (labels : μ → String) {i : μ}
    {d : LinkDeployer μ} (hmacs : d.macs = [i]) {slots : Nat} {channel : Int}
    (hlast : IsLink slots channel d.last) {mac : Mac κ} {s : σ} (hmac : shelf.get? i s = some mac)
    (hcarries : mac.Carries slots channel d.last) {slot : Nat} (hslot : slot < slots) :
    Ends (deploy (Mac.access shelf labels) ⟨[((slot : Int), channel)]⟩) (d, s) fun answer p =>
      p.1 = (if answer then { d with last := ⟨[((slot : Int), channel)]⟩ }
        else { d with failures := d.failures + 1 }) ∧
      ∃ mac', shelf.get? i p.2 = some mac' ∧ mac'.Carries slots channel p.1.last := by
  let f : Fleet μ κ σ ν := {
    shelf, rest, labels
    lawful := hshelf
    ids := [i]
    nodup_ids := List.nodup_singleton i
    mac := fun _ => mac
    sized := fun _ _ => hcarries.sized }
  have hcovers : ∀ links, IsLink slots channel links → f.CoversAll links := by
    rintro links (rfl | ⟨slot, hslot, rfl⟩) j hj e he
    · cases he
    · rw [List.mem_singleton.1 he]
      exact hcarries.covers hslot
  have hnew : IsLink slots channel ⟨[((slot : Int), channel)]⟩ := .inr ⟨slot, hslot, rfl⟩
  have hstep : f.InStep (rest s) d s := {
    macs_eq := hmacs
    distinct := hlast.distinct
    covers := hcovers d.last hlast
    roomy := fun _ _ => hcarries.room
    holds := {
      rest_eq := rfl
      links := fun j hj => by
        obtain rfl := List.mem_singleton.1 hj
        exact ⟨d.last, by rw [← hcarries.links_eq]; exact hmac, hlast.distinct, rfl⟩ } }
  refine (hstep.ends_deploy_plain hnew.distinct (hcovers _ hnew)).mono ?_
  rintro answer ⟨d', t⟩ ⟨hstep', made, hout⟩
  obtain ⟨l, hget, hdistinct, hchannel⟩ := hstep'.holds.links i List.mem_cons_self
  have hcarried : ∀ links, IsLink slots channel links → d'.last = links →
      (mac.withLinks l).Carries slots channel d'.last := by
    rintro links hlinks rfl
    exact {
      slots_eq := hcarries.slots_eq
      channel_mem := hcarries.channel_mem
      sized := hcarries.sized
      room := hstep'.roomy i List.mem_cons_self
      links_eq := Links.eq_of_channel?_eq hdistinct hlinks.distinct hlinks.size_le_one hchannel }
  cases hout with
  | taken => exact ⟨rfl, _, hget, hcarried _ hnew rfl⟩
  | givenUp => exact ⟨rfl, _, hget, hcarried _ hlast rfl⟩

end LinkDeployer

namespace SlotSelection

open LinkDeployer

variable {μ κ σ ν α : Type} [DecidableEq μ] [Journal σ] {shelf : Shelf μ (Mac κ) σ} {rest : σ → ν}

/-! ### The moves so far -/

/-- The move that was accepted last. -/
def lastTaken (made : List LinkDeployment) : Option LinkDeployment :=
  (made.filter (·.answer)).getLast?

theorem lastTaken_concat (made : List LinkDeployment) (d : LinkDeployment) :
    lastTaken (made ++ [d]) = if d.answer then some d else lastTaken made := by
  unfold lastTaken
  rw [List.filter_append]
  cases hd : d.answer with
  | true => simp [hd]
  | false => simp [hd]

/-- The moves of a scheduler tell the links that were deployed last, the slot, and how many
deployments have failed. -/
structure Moved (slots : Nat) (channel first : Int) (made : List LinkDeployment)
    (a : SlotSelection μ α) : Prop where
  moves : ∀ d ∈ made, ∃ slot < slots, d.links = ⟨[((slot : Int), channel)]⟩
  failures_eq : a.deployer.failures = made.countP (!·.answer)
  last_eq : a.deployer.last = ((lastTaken made).map (·.links)).getD .empty
  action_eq : ((lastTaken made).map (·.links)).getD ⟨[(first, channel)]⟩
    = ⟨[(a.action, channel)]⟩

variable {slots : Nat} {channel first : Int} {made : List LinkDeployment} {a : SlotSelection μ α}

omit [DecidableEq μ] in
theorem Moved.isLink (h : Moved slots channel first made a) :
    IsLink slots channel a.deployer.last := by
  rw [h.last_eq]
  cases hlast : lastTaken made with
  | none => exact .inl rfl
  | some d =>
    have hmem := List.mem_of_getLast? hlast
    exact .inr (h.moves d (List.mem_of_mem_filter hmem))

omit [DecidableEq μ] in
/-- One more move: the scheduler takes the slot over if the move is accepted. -/
theorem Moved.concat (h : Moved slots channel first made a) {slot : Nat} (hslot : slot < slots)
    (answer : Bool) {b : SlotSelection μ α}
    (hdeployer : b.deployer = if answer then { a.deployer with last := ⟨[((slot : Int), channel)]⟩ }
      else { a.deployer with failures := a.deployer.failures + 1 })
    (haction : b.action = if answer then (slot : Int) else a.action) :
    Moved slots channel first (made ++ [⟨⟨[((slot : Int), channel)]⟩, answer⟩]) b where
  moves d hd := by
    rcases List.mem_append.1 hd with hd | hd
    · exact h.moves d hd
    · rw [List.mem_singleton.1 hd]
      exact ⟨slot, hslot, rfl⟩
  failures_eq := by
    rw [hdeployer, List.countP_append, ← h.failures_eq]
    cases answer <;> rfl
  last_eq := by
    rw [hdeployer, lastTaken_concat]
    cases answer with
    | true => rfl
    | false => exact h.last_eq
  action_eq := by
    rw [haction, lastTaken_concat]
    cases answer with
    | true => rfl
    | false => exact h.action_eq

/-! ### The scheduler and its device -/

/-- The scheduler, its deployer and its device agree on the one link. -/
structure OneLink (shelf : Shelf μ (Mac κ) σ) (i : μ) (slots : Nat) (channel first : Int)
    (a : SlotSelection μ α) (p : List LinkDeployment × σ) : Prop where
  device : ∃ mac, shelf.get? i p.2 = some mac ∧ mac.Carries slots channel a.deployer.last
  moved : Moved slots channel first p.1 a
  macs_eq : a.deployer.macs = [i]
  mac_eq : a.mac = i
  offset : a.channelOffset = .int channel
  slots_eq : a.table.slots = slots
  channels_eq : a.table.channels = 1
  scores_length : a.peaking.scores.length = slots

variable {i : μ} {s : σ}

omit [DecidableEq μ] [Journal σ] in
theorem OneLink.untouched {p : List LinkDeployment × σ}
    (h : OneLink shelf i slots channel first a p) {t : σ} (ht : shelf.Untouched i p.2 t) :
    OneLink shelf i slots channel first a (p.1, t) := by
  obtain ⟨mac, hmac, hcarries⟩ := h.device
  obtain ⟨mac', hmac', hresembles⟩ := ht mac hmac
  exact { h with device := ⟨mac', hmac', hcarries.resembles hresembles⟩ }

omit [DecidableEq μ] [Journal σ] in
theorem OneLink.kin {p : List LinkDeployment × σ} (h : OneLink shelf i slots channel first a p)
    {b : SlotSelection μ α} (hkin : a.Kin b) : OneLink shelf i slots channel first b p := by
  obtain ⟨table, peaking, epsilon, activation, rfl, hslots, hchannels, hscores⟩ := hkin
  exact { h with
    moved := { h.moved with }
    slots_eq := hslots.trans h.slots_eq
    channels_eq := hchannels.trans h.channels_eq
    scores_length := hscores.trans h.scores_length }

omit [DecidableEq μ] [Journal σ] in
/-- The counts of a scheduler and its slot number have nothing to do with the link. -/
theorem OneLink.recount {p : List LinkDeployment × σ} (h : OneLink shelf i slots channel first a p)
    (asn requested : Option Nat) (successes attempts delay : Nat) :
    OneLink shelf i slots channel first { a with asn, requested, successes, attempts, delay } p :=
  { h with moved := { h.moved with } }

variable [Arith α] {labels : μ → String} {draws : Draws σ α}

/-- A scheduler that moves the link of a device on a shelf, and draws. -/
abbrev deviceNeeds (shelf : Shelf μ (Mac κ) σ) (labels : μ → String) (draws : Draws σ α) :
    Needs μ σ α where
  macs := Mac.access shelf labels
  draws

omit [DecidableEq μ] [Arith α] in
theorem blind_oneLink (hshelf : shelf.Lawful rest)
    (hdraws : ∀ s, Ends draws.uniform s fun _ t => shelf.Untouched i s t) :
    Blind False (deviceNeeds shelf labels draws).outside
      (OneLink (α := α) shelf i slots channel first) where
  kin h hkin := h.kin hkin
  note {a p} n h := ⟨hshelf.obstacle?_eq_none n p.2, h.untouched (hshelf.untouched_enter i n p.2)⟩
  uniform {a p} h := by
    show Meets False draws.uniform.outside (p.1, p.2) _
    rw [meets_outside]
    exact (hdraws p.2).mono fun _ t ht => h.untouched ht

/-- A move leaves the scheduler, its deployer and its device agreed. -/
theorem movesBy_oneLink (hshelf : shelf.Lawful rest) (hpos : 0 < slots) :
    Blind.MovesBy (α := α) False (writing (deploy (Mac.access shelf labels)))
      (OneLink shelf i slots channel first) (OneLink shelf i slots channel first) := by
  rintro a ⟨made, s⟩ slot h hslot
  have hlt := lt_of_eligible h.slots_eq h.scores_length hpos hslot
  have hlinks : a.linkIn slot = .ok ⟨[((slot : Int), channel)]⟩ := by
    rw [linkIn, h.offset]
    rfl
  obtain ⟨mac, hmac, hcarries⟩ := h.device
  rw [meets_false]
  unfold moveBy
  simp only [ends_bind, ends_part, hlinks, ends_ofExcept, Except.ok.injEq, exists_eq_left',
    ends_within, ends_writing]
  refine (ends_deploy_link hshelf labels h.macs_eq h.moved.isLink hmac hcarries hlt).mono ?_
  rintro answer ⟨d, t⟩ ⟨hd, hdevice⟩
  have hmacs : d.macs = [i] := by
    rw [show d = _ from hd, ← h.macs_eq]
    cases answer <;> rfl
  cases answer with
  | true =>
    rw [if_pos rfl, ends_change]
    exact { h with device := hdevice, moved := h.moved.concat hlt true hd rfl, macs_eq := hmacs }
  | false =>
    have hkept : OneLink shelf i slots channel first { a with deployer := d }
        (made ++ [⟨⟨[((slot : Int), channel)]⟩, false⟩], t) :=
      { h with device := hdevice, moved := h.moved.concat hlt false hd rfl, macs_eq := hmacs }
    rw [if_neg Bool.false_ne_true]
    unfold remark
    rw [ends_bind, ends_part, ends_note]
    exact ⟨hshelf.obstacle?_eq_none _ t, hkept.untouched (hshelf.untouched_enter i _ t)⟩

omit [DecidableEq μ] [Arith α] in
theorem requests_oneLink (hshelf : shelf.Lawful rest) :
    Blind.Requests False (deviceNeeds shelf labels draws).outside
      (OneLink (α := α) shelf i slots channel first)
      (OneLink shelf i slots channel first) := by
  rintro a ⟨made, s⟩ h
  obtain ⟨mac, hmac, -⟩ := h.device
  show Meets False (Action.outside (shelf.update a.mac fun m =>
    .ok ((), m.request a.destination (.int a.params.packetSize)))) (made, s) _
  rw [meets_outside, meets_false, h.mac_eq, Shelf.ends_update]
  refine ⟨mac, (), _, hmac, rfl, ?_⟩
  refine (h.recount a.asn a.asn a.successes (a.attempts + 1) a.delay).untouched fun old hold => ?_
  obtain rfl := Option.some.inj (hmac.symm.trans hold)
  exact ⟨_, hshelf.get?_put_self hmac _, rfl, rfl, rfl, rfl⟩

/-! ### Whatever happens -/

omit [DecidableEq μ] in
/-- A rate that cannot be had is found once the slot number has been taken over. -/
theorem onSlotBoundaryBy_of_annealed_eq_error {deploy : Deploys μ σ} {needs : Needs μ σ α}
    {asn : Nat} (hlater : ∀ last, a.asn = some last → last < asn) {f : Fault}
    (hrate : a.annealed asn = .error f) (s : σ) :
    Settles (onSlotBoundaryBy deploy needs (.int asn)) (a, s) fun _ p =>
      p = ({ a with asn := some asn }, s) := by
  rw [settles_congr (onSlotBoundaryBy_of_later _ _ hlater s), settles_ofExcept_bind, hrate]

theorem OneLink.settles_boundary (h : OneLink shelf i slots channel first a (made, s))
    (hshelf : shelf.Lawful rest) (hpos : 0 < slots)
    (hblind : Blind False (deviceNeeds shelf labels draws).outside
      (OneLink (α := α) shelf i slots channel first)) {asn : Nat}
    (hlater : ∀ last, a.asn = some last → last < asn) :
    Settles (happenWriting (deviceNeeds shelf labels draws) (.called (.boundary (.int asn))))
      (a, made, s) fun _ p => OneLink shelf i slots channel first p.1 p.2 := by
  have hreached := h.recount (some asn) a.requested a.successes a.attempts a.delay
  cases hrate : a.annealed asn with
  | error f =>
    refine (onSlotBoundaryBy_of_annealed_eq_error hlater hrate (made, s)).mono ?_
    rintro _ _ rfl
    exact hreached
  | ok epsilon =>
    refine settles_of_ends ((meets_false.1 (hblind.meets_onSlotBoundaryBy hblind
      (fun _ => movesBy_oneLink hshelf hpos) (fun _ => requests_oneLink hshelf) (.inl hlater)
      (.inl ⟨epsilon, hrate⟩) hreached)).mono ?_)
    intro _ p hp
    split at hp
    · exact hp.elim id id
    · exact hp

omit [DecidableEq μ] in
theorem OneLink.settles_outcome (h : OneLink shelf i slots channel first a (made, s))
    {needs : Needs μ (List LinkDeployment × σ) α}
    (hblind : Blind False needs (OneLink shelf i slots channel first)) (slot : Datum)
    (success : Bool) :
    Settles (onTransmissionOutcome slot success) (a, made, s) fun _ p =>
      OneLink shelf i slots channel first p.1 p.2 := by
  cases hcheck : checkIndex (possessive ownerLabel) "slot" a.table.slots slot with
  | error f =>
    unfold onTransmissionOutcome
    rw [settles_part_bind, settles_ofExcept_bind, hcheck]
    exact h
  | ok n =>
    obtain ⟨rfl, hlt⟩ := checkIndex_eq_ok hcheck
    have hcounting : OneLink shelf i slots channel first (a.counting success) (made, s) := by
      unfold counting confirmed
      split
      · dsimp only
        split
        · exact h.recount _ _ _ _ _
        · exact h.recount _ _ _ _ _
      · exact h
    exact settles_of_ends (meets_false.1 (hblind.meets_onTransmissionOutcome
      (.inl ⟨⟨n, Int.ofNat_lt.1 hlt, rfl⟩, h.channels_eq ▸ Nat.one_pos⟩) hcounting))

/-- Whatever happens that leaves the links of the device to the scheduler. -/
theorem OneLink.settles_happen (h : OneLink shelf i slots channel first a (made, s))
    (hshelf : shelf.Lawful rest) (hpos : 0 < slots)
    (hblind : Blind False (deviceNeeds shelf labels draws).outside
      (OneLink (α := α) shelf i slots channel first)) {event : Happening σ}
    (helsewhere : ∀ change, event = .elsewhere change → ∀ s, shelf.Untouched i s (change s)) :
    Settles (happenWriting (deviceNeeds shelf labels draws) event) (a, made, s) fun _ p =>
      OneLink shelf i slots channel first p.1 p.2 := by
  cases event with
  | called call =>
    cases call with
    | boundary x =>
      cases hx : Signal.later? a.asn x with
      | none =>
        exact (settles_of_eq_error (onSlotBoundaryBy_of_later?_eq_none _ _ hx _)).2 h
      | some asn =>
        obtain ⟨rfl, hlater⟩ := Signal.later?_eq_some hx
        exact h.settles_boundary hshelf hpos hblind hlater
    | outcome slot channel success => exact h.settles_outcome hblind slot success
  | overheard slot =>
    refine (settles_onOverheardActivity slot (made, s)).mono ?_
    rintro _ _ rfl
    exact h.kin ⟨_, _, _, _, rfl, rfl, rfl, PeakingTable.length_raised a.peaking slot⟩
  | elsewhere change => exact h.untouched (helsewhere change rfl s)

/-- A slot scheduler on a device of its own, whatever number of links there is room for and
whatever happens: the device has the link that was deployed last, which is none at first and then
that of the move that was accepted last, in the slot that the scheduler knows of. Every refused move
is a failure of the deployer, and changes nothing else. -/
theorem device_has_one_link (hshelf : shelf.Lawful rest) (labels : μ → String)
    (hdraws : ∀ s, Ends draws.uniform s fun _ t => shelf.Untouched i s t) {params : Parameters α}
    {node destination : Datum} {voice : Voice}
    (ha : create params node (.int slots) i destination (.int channel) voice = .ok a) (first : Int)
    {mac : Mac κ} (hmac : shelf.get? i s = some mac) (hslots : mac.slots = .int slots)
    (hchannel : mac.channels.Bounds channel) (hsized : mac.IsSized) (hlinks : mac.links = .empty)
    {events : List (Happening σ)}
    (helsewhere : ∀ change, .elsewhere change ∈ events → ∀ s, shelf.Untouched i s (change s)) :
    ∃ outcomes a' made t mac',
      attemptEach (happenWriting ⟨Mac.access shelf labels, draws⟩) events
        ({ a with action := first }, [], s) = .ok outcomes (a', made, t) ∧
      attemptEach (happen ⟨Mac.access shelf labels, draws⟩) events ({ a with action := first }, s)
        = .ok outcomes (a', t) ∧
      shelf.get? i t = some mac' ∧ mac'.links = a'.deployer.last ∧
      (∀ d ∈ made, ∃ slot < slots, d.links = ⟨[((slot : Int), channel)]⟩) ∧
      a'.deployer.failures = made.countP (!·.answer) ∧
      match lastTaken made with
      | none => mac'.links = .empty ∧ a'.action = first
      | some d => mac'.links = d.links ∧ d.links = ⟨[(a'.action, channel)]⟩ := by
  obtain ⟨hfits, rfl⟩ := create_eq_ok ha
  have hstart : OneLink shelf i slots channel first
      { fresh params node slots i destination (.int channel) voice with action := first }
      ([], s) := {
    device := by
      refine ⟨mac, hmac, hslots, hchannel, hsized, ?_, hlinks⟩
      exact mac.hasRoom_empty
    moved := {
      moves := List.forall_mem_nil _
      failures_eq := rfl
      last_eq := rfl
      action_eq := rfl }
    macs_eq := rfl
    mac_eq := rfl
    offset := rfl
    slots_eq := rfl
    channels_eq := rfl
    scores_length := List.length_replicate }
  have hstep : ∀ _past : List (Happening σ), ∀ event ∈ events,
      ∀ p : SlotSelection μ α × List LinkDeployment × σ,
        OneLink shelf i slots channel first p.1 p.2 →
        Settles (happenWriting (deviceNeeds shelf labels draws) event) p fun _ q =>
          OneLink shelf i slots channel first q.1 q.2 :=
    fun _ event hevent p hp => hp.settles_happen hshelf hfits.slots_pos
      (blind_oneLink hshelf hdraws) fun change hchange => helsewhere change (hchange ▸ hevent)
  obtain ⟨outcomes, a', made, t, hwriting, hplain, hend⟩ := attemptEach_happen_eq_ok
    (I := fun _ p => OneLink shelf i slots channel first p.1 p.2) hstep hstart
  obtain ⟨mac', hmac', hcarries⟩ := hend.device
  refine ⟨outcomes, a', made, t, mac', hwriting, hplain, hmac', hcarries.links_eq,
    hend.moved.moves, hend.moved.failures_eq, ?_⟩
  have hlast := hcarries.links_eq.trans hend.moved.last_eq
  have haction := hend.moved.action_eq
  cases htaken : lastTaken made with
  | none =>
    rw [htaken] at hlast haction
    cases haction
    exact ⟨hlast, rfl⟩
  | some d =>
    rw [htaken] at hlast haction
    exact ⟨hlast, haction⟩

/-- A device of two slots with room for a single link. -/
def narrow : Mac Nat where
  name := .text "1"
  slots := .int 2
  channels := .int 1
  owned := [0, 1]
  capacity := some (.int 1)
  links := .empty
  sequence := none
  queue := []
  sink := none
  asn := none

def lone : Star Unit ℚ where
  macs := #[narrow]
  schedulers := #[]
  source := ()
  statistics := .empty
  notes := []

/-- Activity that drives a link from its slot and then back. -/
def toAndFro : List (Happening (Star Unit ℚ)) :=
  [.called (.boundary (.int 0)), .overheard (.int 0), .called (.boundary (.int 2)),
    .overheard (.int 1), .overheard (.int 1), .called (.boundary (.int 4))]

/-- The way back is refused: the slot before the one in use gets its link before that goes. -/
theorem device_has_one_link_narrow :
    ∃ outcomes a made t mac,
      attemptEach (happenWriting ⟨Star.macAccess, least⟩) toAndFro
        ({ newcomer with action := 1 }, [], lone) = .ok outcomes (a, made, t) ∧
      made.map (·.answer) = [true, true, false] ∧ t.macs[0]? = some mac ∧
      mac.links = ⟨[(1, 0)]⟩ ∧ a.action = 1 ∧ a.deployer.failures = 1 := by
  have hsized : narrow.IsSized := by
    intro d hd
    cases hd
    rfl
  have hchannel : narrow.channels.Bounds 0 := ⟨by decide, .int 1, rfl, by decide⟩
  have hdraws : ∀ s : Star Unit ℚ, Ends least.uniform s fun _ t => Star.shelf.Untouched 0 s t :=
    fun _ mac hmac => ⟨mac, hmac, rfl, rfl, rfl, rfl⟩
  have helsewhere : ∀ change, .elsewhere change ∈ toAndFro →
      ∀ s, Star.shelf.Untouched 0 s (change s) := by
    intro change hmem
    simp [toAndFro] at hmem
  obtain ⟨outcomes, a, made, t, mac, hrun, -, hmac, -, -, hfailures, hlast⟩ :=
    device_has_one_link Star.lawful_shelf (fun i => Mac.labelOf (.text (Star.senderName i))) hdraws
      create_newcomer 1 (show Star.shelf.get? 0 lone = some narrow from rfl) rfl hchannel hsized rfl
      helsewhere
  have hmoves : Ends (attemptEach (happenWriting ⟨Star.macAccess, least⟩) toAndFro)
      ({ newcomer with action := 1 }, [], lone) fun _ p =>
        p.2.1.map (·.answer) = [true, true, false] ∧
          (lastTaken p.2.1).map (·.links) = some ⟨[(1, 0)]⟩ := by
    unfold happenWriting hearWriting LinkDeployer.deploy
    rw [LinkEdit.between_eq_insertionSort]
    decide +kernel
  obtain ⟨hanswers, htaken⟩ := (meets_false.2 hmoves).post hrun
  have hone : made.countP (!·.answer) = 1 := by
    have hmap : (made.map (·.answer)).countP (!·) = made.countP (!·.answer) := List.countP_map ..
    rw [← hmap, hanswers]
    rfl
  cases hd : lastTaken made with
  | none =>
    rw [hd] at htaken
    cases htaken
  | some d =>
    rw [hd] at hlast htaken
    have hd : d.links = ⟨[(1, 0)]⟩ := Option.some.inj htaken
    obtain ⟨hlinks, haction⟩ := hlast
    rw [hd] at hlinks haction
    exact ⟨outcomes, a, made, t, mac, hrun, hanswers, hmac, hlinks, by simpa using haction.symm,
      hfailures.trans hone⟩

end SlotSelection
end TschLearning
