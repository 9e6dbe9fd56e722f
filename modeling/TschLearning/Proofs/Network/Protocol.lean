import TschLearning.Draws.Scripted
import TschLearning.Proofs.Network.Amid
import TschLearning.Proofs.Scenario.Edited

/-! The order in which a network tells its events. In a run from the first slot on, every sink
hears the boundary of every slot once and in order, and when it hears one, the outcomes of all
slots before it have been delivered and no others. -/

namespace TschLearning

variable {μ κ ο σ α : Type}

namespace Deed

/-- The slot that a sink is told to start. -/
def boundaryTo [DecidableEq κ] (k : κ) : Deed μ κ ο α → Option Nat
  | .delivered (.boundary k' asn) _ => if k' = k then some asn else none
  | _ => none

/-- The outcome that a sink is told. -/
def outcome? : Deed μ κ ο α → Option (κ × Datum × Int × Bool)
  | .delivered (.outcome k slot channel success) _ => some (k, slot, channel, success)
  | _ => none

end Deed

theorem filterMap_ite_eq {β γ : Type} [DecidableEq β] {items : List β} (h : items.Nodup) (b : β)
    (c : γ) : items.filterMap (fun b' => if b' = b then some c else none)
      = if b ∈ items then [c] else [] := by
  induction items with
  | nil => rfl
  | cons b' rest ih =>
    rw [List.nodup_cons] at h
    by_cases hb : b' = b
    · subst hb
      simp [ih h.2, h.1]
    · simp [ih h.2, hb, Ne.symm hb]

variable [Arith α]

theorem Turn.mem_deeds {traffic : α} {slot : Nat} {t : Turn μ κ α} {d : Deed μ κ ο α}
    (h : d ∈ t.deeds traffic slot) : (∃ u, d = .drawn u) ∨ ∃ m, d = .set t.device m := by
  unfold deeds at h
  split at h
  · simp only [List.mem_append, List.mem_map, List.mem_singleton] at h
    rcases h with (⟨u, -, rfl⟩ | h) | rfl
    · exact .inl ⟨u, rfl⟩
    · split at h
      · exact .inr ⟨_, List.mem_singleton.1 h⟩
      · cases h
    · exact .inr ⟨_, rfl⟩
  · cases h

theorem Confirmation.boundaryTo_deeds [DecidableEq κ] {net : Network μ ο α} {asn slot : Nat}
    {directory : Directory μ κ} {c : Confirmation μ α} {d : Deed μ κ ο α}
    (h : d ∈ c.deeds net asn slot directory) (k : κ) : d.boundaryTo k = none := by
  unfold deeds at h
  simp only [List.mem_append, List.mem_map] at h
  rcases h with (⟨u, -, rfl⟩ | ⟨k, -, rfl⟩) | ⟨o, -, rfl⟩ <;> rfl

namespace Episode

variable [DecidableEq κ] {env : Surroundings μ κ ο σ α} {net : Network μ ο α} {slots : Nat}
  {traffic : α} {directory : Directory μ κ} {e : Episode μ κ σ α}

omit [Arith α] in
/-- No outcome is told before all sinks heard the boundary. -/
theorem outcome?_opening {d : Deed μ κ ο α}
    (h : d ∈ e.announcements env net ++ e.boundaries net directory) : d.outcome? = none := by
  rcases List.mem_append.1 h with h | h
  · obtain ⟨i, -, hset⟩ := List.mem_filterMap.1 h
    obtain ⟨m, -, rfl⟩ := Option.map_eq_some_iff.1 hset
    rfl
  · obtain ⟨k, -, rfl⟩ := List.mem_map.1 h
    rfl

variable [DecidableEq μ]

/-- What the network does after the boundaries. -/
def resolving (net : Network μ ο α) (slots : Nat) (traffic : α) (directory : Directory μ κ)
    (e : Episode μ κ σ α) : List (Deed μ κ ο α) :=
  e.turns.flatMap (·.deeds traffic (e.slot slots))
    ++ e.confirmations.flatMap (·.deeds net e.asn (e.slot slots) directory)
    ++ e.overhearings net slots directory

theorem deeds_eq : e.deeds env net slots traffic directory
    = (e.announcements env net ++ e.boundaries net directory)
      ++ e.resolving net slots traffic directory := by
  simp only [deeds, resolving, List.append_assoc]

/-- No boundary is told once a device had its turn. -/
theorem boundaryTo_resolving {d : Deed μ κ ο α} (h : d ∈ e.resolving net slots traffic directory)
    (k : κ) : d.boundaryTo k = none := by
  unfold resolving at h
  simp only [List.mem_append, List.mem_flatMap] at h
  rcases h with (⟨t, -, h⟩ | ⟨c, -, h⟩) | h
  · rcases t.mem_deeds h with ⟨u, rfl⟩ | ⟨m, rfl⟩ <;> rfl
  · exact c.boundaryTo_deeds h k
  · unfold overhearings at h
    split at h
    · cases h
    · obtain ⟨k', -, rfl⟩ := List.mem_map.1 h
      rfl

/-- In a slot every attached sink hears the boundary once. -/
theorem filterMap_boundaryTo (k : κ) :
    (e.deeds env net slots traffic directory).filterMap (·.boundaryTo k)
      = if k ∈ net.macs.filterMap directory.sink then [e.asn] else [] := by
  have hset : (e.announcements env net).filterMap (·.boundaryTo k) = [] := by
    apply List.filterMap_eq_nil_iff.2
    intro d hd
    obtain ⟨i, -, hset⟩ := List.mem_filterMap.1 hd
    obtain ⟨m, -, rfl⟩ := Option.map_eq_some_iff.1 hset
    rfl
  have hboundaries : (e.boundaries net directory).filterMap (·.boundaryTo k)
      = if k ∈ net.macs.filterMap directory.sink then [e.asn] else [] := by
    have hones := filterMap_ite_eq
      (Network.Staged.nodup_eraseDups (net.macs.filterMap directory.sink)) k e.asn
    simp only [List.mem_eraseDups] at hones
    rw [boundaries, List.filterMap_map]
    exact hones
  have hrest : (e.resolving net slots traffic directory).filterMap (·.boundaryTo k) = [] :=
    List.filterMap_eq_nil_iff.2 fun d hd => boundaryTo_resolving hd k
  rw [deeds_eq, List.filterMap_append, List.filterMap_append, hset, hboundaries, hrest,
    List.nil_append, List.append_nil]

/-- When a sink hears a boundary, no outcome of the slot has been told. -/
theorem filterMap_outcome?_of_boundary {earlier later : List (Deed μ κ ο α)} {k : κ} {asn : Nat}
    {fault : Option Fault} (h : e.deeds env net slots traffic directory
      = earlier ++ .delivered (.boundary k asn) fault :: later) :
    asn = e.asn ∧ earlier.filterMap Deed.outcome? = [] := by
  have hself : (Deed.delivered (.boundary k asn) fault : Deed μ κ ο α).boundaryTo k = some asn :=
    if_pos rfl
  have hresolving :
      .delivered (.boundary k asn) fault ∉ e.resolving net slots traffic directory := by
    intro hd
    rw [boundaryTo_resolving hd k] at hself
    cases hself
  constructor
  · have hmem : asn ∈ (e.deeds env net slots traffic directory).filterMap (·.boundaryTo k) := by
      rw [h]
      exact List.mem_filterMap.2 ⟨_, by simp, hself⟩
    rw [filterMap_boundaryTo] at hmem
    split at hmem
    · exact List.mem_singleton.1 hmem
    · cases hmem
  · rw [deeds_eq] at h
    apply List.filterMap_eq_nil_iff.2
    intro d hd
    rcases List.append_eq_append_iff.1 h with ⟨rest, -, hrest⟩ | ⟨rest, hrest, -⟩
    · exact absurd (hrest ▸ by simp) hresolving
    · exact outcome?_opening (hrest ▸ List.mem_append_left rest hd)

/-- When a sink hears a boundary in a run, the outcomes that have been told are those of the slots
before it. -/
theorem outcomes_before_boundary {episodes : List (Episode μ κ σ α)} {start : Nat}
    (hasns : episodes.map (·.asn) = List.range' start episodes.length)
    {earlier later : List (Deed μ κ ο α)} {k : κ} {asn : Nat} {fault : Option Fault}
    (h : episodes.flatMap (·.deeds env net slots traffic directory)
      = earlier ++ .delivered (.boundary k asn) fault :: later) :
    start ≤ asn ∧ earlier.filterMap Deed.outcome?
      = ((episodes.take (asn - start)).flatMap
          (·.deeds env net slots traffic directory)).filterMap Deed.outcome? := by
  induction episodes generalizing start earlier with
  | nil => simp at h
  | cons e rest ih =>
    rw [List.map_cons, List.length_cons, List.range'_succ, List.cons.injEq] at hasns
    obtain ⟨rfl, hasns⟩ := hasns
    -- the boundary belongs to a later slot
    have hlater : ∀ earlier', earlier = e.deeds env net slots traffic directory ++ earlier' →
        rest.flatMap (·.deeds env net slots traffic directory)
          = earlier' ++ .delivered (.boundary k asn) fault :: later →
        e.asn ≤ asn ∧ earlier.filterMap Deed.outcome?
          = (((e :: rest).take (asn - e.asn)).flatMap
              (·.deeds env net slots traffic directory)).filterMap Deed.outcome? := by
      rintro earlier' rfl hrest
      obtain ⟨hle, houtcomes⟩ := ih hasns hrest
      refine ⟨by omega, ?_⟩
      rw [show asn - e.asn = asn - (e.asn + 1) + 1 by omega, List.take_succ_cons,
        List.flatMap_cons, List.filterMap_append, List.filterMap_append, houtcomes]
    rw [List.flatMap_cons] at h
    rcases List.append_eq_append_iff.1 h with ⟨earlier', rfl, hrest⟩ | ⟨later', hslot, hrest⟩
    · exact hlater earlier' rfl hrest
    · cases later' with
      | nil => exact hlater [] (by simpa using hslot.symm) (by simpa using hrest.symm)
      | cons d later' =>
        obtain ⟨rfl, -⟩ := List.cons.inj hrest
        obtain ⟨rfl, hnone⟩ := filterMap_outcome?_of_boundary hslot
        exact ⟨Nat.le_refl _, by rw [hnone, Nat.sub_self]; rfl⟩

end Episode

namespace Network

open TschLearning.Action

variable [DecidableEq μ] [DecidableEq κ] [Journal σ] {env : Surroundings μ κ ο σ α}
  {slots channels : Nat} {directory : Directory μ κ} {net : Network μ ο α} {q : α} {s : σ}

/-- A run of slots, with callers who do something before every one, goes slot by slot as its
episodes say, unless a handler of an event raises a fault. Callers and handlers may do with the
devices as they like, as long as these keep their sinks and a schedule within the slotframe. -/
theorem runAmid_inOrder
    (h : env.Tame net.macs (Mac.Tended slots channels) (Mac.Tended slots channels))
    (hnet : net.Regular slots channels) (hq : net.traffic = .ok q) (hnodup : net.macs.Nodup)
    {callers : List (Action σ Unit)}
    (hcallers : ∀ x ∈ callers, env.macs.Alters net.macs (Mac.Tended slots channels) x)
    (hs : env.macs.Attached slots channels net.macs directory s) :
    EndsOr (fun p => Raised p.2) (runAmid env.logged (callers.map outside)) (net, [], s)
      fun _ p =>
        p.1 = { net with asn := net.asn + callers.length } ∧
        runAmid env callers (net, s) = .ok () (p.1, p.2.2) ∧
        ∃ episodes : List (Episode μ κ σ α),
          p.2.1 = episodes.flatMap (·.deeds env net slots q directory) ∧
          episodes.map (·.asn) = List.range' net.asn callers.length ∧
          (∀ e ∈ episodes, e.Valid env net slots q) ∧
          Episode.Chain env.macs net.macs (Mac.Tended slots channels) episodes s p.2.2 ∧
          (∀ k, p.2.1.filterMap (·.boundaryTo k) = if k ∈ net.macs.filterMap directory.sink then
            List.range' net.asn callers.length else []) ∧
          ∀ earlier k asn fault later,
            p.2.1 = earlier ++ .delivered (.boundary k asn) fault :: later →
            earlier.filterMap Deed.outcome? = ((episodes.take (asn - net.asn)).flatMap
              (·.deeds env net slots q directory)).filterMap Deed.outcome? := by
  have hgentle := Mac.gentle_tended κ slots channels
  refine (endsOr_runAmid h hgentle hgentle hnet hq hnodup hcallers net.asn hs).ran.mono ?_
  rintro _ ⟨_, _, t⟩ ⟨⟨rfl, episodes, hasns, hall, hchain, rfl⟩, hran⟩
  refine ⟨rfl, runAmid_of_logged hran, episodes, List.nil_append _, hasns,
    fun e he => (hall e he).1, hchain, ?_, ?_⟩
  · intro k
    rw [List.nil_append, List.filterMap_flatMap]
    simp only [Episode.filterMap_boundaryTo]
    split
    · rw [← hasns, List.map_eq_flatMap]
    · simp
  · intro earlier k asn fault later h
    have hlength : episodes.length = callers.length := by
      simpa using congrArg List.length hasns
    rw [List.nil_append] at h
    rw [← hlength] at hasns
    exact (Episode.outcomes_before_boundary hasns h).2

end Network

namespace Star

open TschLearning.Action Network

/-- Three devices and two slots. The first two devices share a scheduler, and the last two transmit
on the same channel in the first slot. -/
def shared : Network Nat Unit Float × Star Scripted Float where
  fst :=
    { slots := .int 2, channels := .int 2, interference := ⟨[0, 0]⟩, slotDuration := .ok slotLength
      traffic := .ok 0, macs := [0, 1, 2], asn := 0, started := false
      observers := (Notifier.create (.text "transmission") (possessive Network.ownerLabel)).place ()
        (.number (.int 0)) }
  snd :=
    { macs := #[
        { name := .text "a", slots := .int 2, channels := .int 2, owned := [1], capacity := none
          links := .empty, sequence := none, queue := [], sink := some 0, asn := none },
        { name := .text "b", slots := .int 2, channels := .int 2, owned := [0, 1], capacity := none
          links := Links.empty.insert 0 1, sequence := none
          queue := [⟨.int 0, .int 10, none⟩, ⟨.int 0, .int 10, none⟩], sink := some 0, asn := none },
        { name := .text "c", slots := .int 2, channels := .int 2, owned := [0], capacity := none
          links := Links.empty.insert 0 1, sequence := none
          queue := [⟨.int 0, .int 10, none⟩], sink := none, asn := none }]
      schedulers := #[({
          params := { Parameters.level (1 : Float) 0 with epsilonScale := 10000 }, node := .int 1
          destination := .int 0, channelOffset := .int 0, mac := 0, voice := .ofModule
          table := Grid.empty 2 1 0, peaking := ⟨[0, 0]⟩, epsilon := 1
          activation := ⟨.int 0, 0, true⟩, deployer := .create [0], action := 0, asn := none
          requested := none, successes := 0, attempts := 0, delay := 0 }, ⟨#[0.5], 0⟩)]
      source := ⟨#[0.5], 0⟩, statistics := .empty, notes := [] }

def callers : List (Action (Star Scripted Float) Unit) :=
  [pure (), macAccess.request 2 (.int 0) 4, pure ()]

theorem alters_callers : ∀ x ∈ callers, shelf.Alters shared.1.macs Mac.Edits x := by
  intro x hx
  simp only [callers, List.mem_cons, List.not_mem_nil, or_false] at hx
  rcases hx with rfl | rfl | rfl
  · exact Shelf.alters_pure Mac.edits_refl ()
  · exact (alters_macAccess _).request 2 (.int 0) 4
  · exact Shelf.alters_pure Mac.edits_refl ()

def directory : Directory Nat Nat where
  sink i := (shared.2.macs[i]?.bind Mac.sink)
  name i := (shared.2.macs[i]?.map Mac.name).getD .null

theorem attached_shared : shelf.Attached 2 2 shared.1.macs directory shared.2 := by
  have hlinks : ∀ slot c, (Links.empty.insert 0 1).channel? slot = some c → 0 ≤ c ∧ c < 2 := by
    intro slot c h
    rw [Links.channel?_insert] at h
    split at h
    · cases h
      decide
    · cases h
  intro i hi
  simp only [shared, List.mem_cons, List.not_mem_nil, or_false] at hi
  rcases hi with rfl | rfl | rfl
  · exact ⟨_, rfl, rfl, rfl, rfl, rfl, nofun, nofun⟩
  · exact ⟨_, rfl, rfl, rfl, rfl, rfl, hlinks, nofun⟩
  · exact ⟨_, rfl, rfl, rfl, rfl, rfl, hlinks, nofun⟩

theorem regular_shared : shared.1.Regular 2 2 := ⟨by decide, by decide, rfl, rfl, _, rfl⟩

theorem ends_shared : Ends (runAmid surroundings.logged (callers.map outside))
    (shared.1, [], shared.2) fun _ _ => True := by
  unfold surroundings SlotSelection.onSlotBoundary SlotSelection.startSlotframe
    SlotSelection.move LinkDeployer.deploy
  rw [LinkEdit.between_eq_insertionSort]
  decide +kernel

theorem runAmid_inOrder_shared :
    Ends (runAmid surroundings.logged (callers.map outside)) (shared.1, [], shared.2) fun _ p =>
      p.1 = { shared.1 with asn := 3 } ∧
      p.2.1.filterMap (·.boundaryTo 0) = [0, 1, 2] ∧
      ∃ episodes : List (Episode Nat Nat (Star Scripted Float) Float),
        p.2.1 = episodes.flatMap (·.deeds surroundings shared.1 2 0 directory) ∧
        episodes.map (·.asn) = [0, 1, 2] ∧
        ∀ e ∈ episodes, e.Valid surroundings shared.1 2 0 := by
  have hedits := Mac.gentle_edits Nat 2 2
  have htame := (tame_surroundings (ρ := Scripted) (α := Float) shared.1.macs).tended hedits
    (Mac.gentle_eq Nat 2 2)
  have hcallers := fun x hx => (alters_callers x hx).mono fun _ _ => hedits.tended
  refine ((runAmid_inOrder htame regular_shared rfl (by decide) hcallers attached_shared).ends
    ends_shared).mono ?_
  rintro _ p ⟨hnet, -, episodes, hlog, hasns, hvalid, -, hboundaries, -⟩
  exact ⟨hnet, hboundaries 0, episodes, hlog, hasns, hvalid⟩

end Star
end TschLearning
