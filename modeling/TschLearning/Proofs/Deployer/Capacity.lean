import TschLearning.Proofs.Deployer.Courses
import TschLearning.Proofs.Links.Midway
import TschLearning.Scheduler.SlotSelection

/-! Which link schedules are accepted. A link is added before the links of later slots are
deleted, so what has to fit is not the new schedule but every table on the way to it, which has
the new links up to a slot and the old ones behind that slot. -/

namespace TschLearning

open TschLearning.Action

namespace Fleet

variable {μ κ σ ν : Type} [DecidableEq μ] [Journal σ] {f : Fleet μ κ σ ν} {rest : ν}
  {d d' : LinkDeployer μ} {tables : μ → SlotTable} {links : Links} {answer : Bool} {s t : σ}

/-! ### Room on the way -/

theorem roomyAll_map {i : μ} (hi : i ∈ f.ids) (edits : List LinkEdit) :
    f.RoomyAll tables (edits.map fun e => (i, e)) ↔
      f.Roomy tables ∧ LinkEdit.Along (f.mac i).HasRoom (tables i) edits := by
  induction edits generalizing tables with
  | nil => exact ⟨fun h => ⟨h, h i hi⟩, And.left⟩
  | cons e edits ih =>
    show f.Roomy tables ∧ f.RoomyAll (edited tables (i, e)) _ ↔ _
    rw [ih, edited_self tables (i, e)]
    constructor
    · rintro ⟨hroomy, -, halong⟩
      exact ⟨hroomy, hroomy i hi, halong⟩
    · rintro ⟨hroomy, -, halong⟩
      exact ⟨hroomy, hroomy.edited halong.first, halong⟩

theorem roomyAll_flatMap {ids : List μ} (hids : ids ⊆ f.ids) (hnd : ids.Nodup)
    (edits : List LinkEdit) :
    f.RoomyAll tables (ids.flatMap fun i => edits.map fun e => (i, e)) ↔
      f.Roomy tables ∧ ∀ i ∈ ids, LinkEdit.Along (f.mac i).HasRoom (tables i) edits := by
  induction ids generalizing tables with
  | nil => exact ⟨fun h => ⟨h, fun i hi => absurd hi List.not_mem_nil⟩, And.left⟩
  | cons i ids ih =>
    rw [List.nodup_cons] at hnd
    rw [List.cons_subset] at hids
    have hothers : ∀ j ∈ ids,
        editedAll tables (edits.map fun e => (i, e)) j = tables j := by
      intro j hj
      rw [editedAll_map, Function.update_of_ne]
      rintro rfl
      exact hnd.1 hj
    have hrest : (∀ j ∈ ids, LinkEdit.Along (f.mac j).HasRoom
        (editedAll tables (edits.map fun e => (i, e)) j) edits) ↔
        ∀ j ∈ ids, LinkEdit.Along (f.mac j).HasRoom (tables j) edits :=
      forall₂_congr fun j hj => by rw [hothers j hj]
    rw [List.flatMap_cons, roomyAll_append, ih hids.2 hnd.2, roomyAll_map hids.1,
      List.forall_mem_cons, hrest]
    constructor
    · rintro ⟨⟨hroomy, halong⟩, -, hall⟩
      exact ⟨hroomy, halong, hall⟩
    · rintro ⟨hroomy, halong, hall⟩
      exact ⟨⟨hroomy, halong⟩, ((roomyAll_map hids.1 edits).2 ⟨hroomy, halong⟩).last, hall⟩

/-- What has to fit for a deployment is the table behind the edits of every slot that is to have
a link. -/
theorem Facing.roomyAll_planOf (h : f.Facing rest d tables s) (hl : links.Distinct) :
    f.RoomyAll tables (planOf d links) ↔ ∀ i ∈ f.ids, ∀ slot ∈ links.slots,
      (f.mac i).HasRoom (LinkEdit.midway d.last links slot (tables i)) := by
  unfold planOf LinkDeployer.plan
  rw [h.macs_eq, roomyAll_flatMap (List.Subset.refl f.ids) f.nodup_ids, and_iff_right h.roomy]
  refine forall₂_congr fun i hi => ?_
  rw [LinkEdit.along_between (fun _ s ht => ht.clear s) h.distinct hl,
    and_iff_right (h.roomy i hi)]

omit [DecidableEq μ] in
/-- At MAC layers with the links that were deployed last, the new links up to a slot have to fit
together with the old ones behind it. -/
theorem Facing.hasRoom_midway (h : f.Facing rest d tables s) (hl : links.Distinct)
    (hlevel : f.Level d tables) {i : μ} (hi : i ∈ f.ids) (slot : Int) :
    (f.mac i).HasRoom (LinkEdit.midway d.last links slot (tables i)) ↔
      (f.mac i).HasRoomFor
        (links.slots.countP (· ≤ slot) + d.last.slots.countP (slot < ·)) := by
  rw [hlevel i hi, ← LinkEdit.channel?_through h.distinct hl,
    Mac.hasRoom_iff (LinkEdit.distinct_through h.distinct hl slot), LinkEdit.size_through]

theorem Facing.deploy_eq_ok (h : f.Facing rest d tables s) (hl : links.Distinct)
    (hrange : f.CoversAll links) :
    ∃ answer d' t, LinkDeployer.deploy f.access links (d, s) = .ok answer (d', t) ∧
      (answer = true ↔ f.RoomyAll tables (planOf d links)) := by
  have hends : Ends (LinkDeployer.deploy f.access links) (d, s)
      fun answer _ => answer = true ↔ f.RoomyAll tables (planOf d links) :=
    ends_of_settles ((h.settles_deploy links).mono fun _ _ hc => hc.answer h hl hrange)
  obtain ⟨answer, ⟨d', t⟩, hrun, hanswer⟩ := ends_iff.1 hends
  exact ⟨answer, d', t, hrun, hanswer⟩

end Fleet

/-- A link finds room for one beside the links behind its slot only if there are none of them. -/
theorem Mac.hasRoomFor_move {κ : Type} {m : Mac κ} (h : m.capacity = some (.int 1)) (slot : Int)
    (old : List Int) : m.HasRoomFor ([slot].countP (· ≤ slot) + old.countP (slot < ·)) ↔
      ∀ u ∈ old, u ≤ slot := by
  have hnone : (∀ u ∈ old, u ≤ slot) ↔ old.countP (slot < ·) = 0 := by
    simp [List.countP_eq_zero]
  have hself : [slot].countP (· ≤ slot) = 1 := by simp
  rw [hself, hnone, hasRoomFor_int h (by omega)]
  omega

namespace SlotSelection

variable {μ σ α : Type} {a : SlotSelection μ α} {slot : Nat} {links : Links}

theorem slots_linkIn (h : a.linkIn slot = .ok links) : links.slots = [(slot : Int)] := by
  obtain ⟨pairs, hpairs, hlinks⟩ := bind_eq_ok.1 h
  obtain ⟨pair, hpair, hnil⟩ := bind_eq_ok.1 hpairs
  obtain ⟨_, hslot, hpair⟩ := bind_eq_ok.1 hpair
  obtain ⟨channel, -, hpair⟩ := bind_eq_ok.1 hpair
  cases hslot
  cases hpair
  cases hnil
  cases hlinks
  rfl

/-- A slot scheduler takes the slot if its deployment is accepted, and keeps its own otherwise. -/
theorem ends_move [Journal σ] [Arith α] {needs : Needs μ σ α} {s t : σ} {answer : Bool}
    {d' : LinkDeployer μ}
    (hnote : ∀ (n : Note) (s : σ), Journal.obstacle? n s = none)
    (hlinks : a.linkIn slot = .ok links)
    (hrun : LinkDeployer.deploy needs.macs links (a.deployer, s) = .ok answer (d', t)) :
    Ends (move needs slot) (a, s) fun _ p =>
      p.1.action = if answer then (slot : Int) else a.action := by
  have hdeploy : Ends (LinkDeployer.deploy needs.macs links) (a.deployer, s)
      fun b p => b = answer ∧ p = (d', t) := ends_iff.2 ⟨_, _, hrun, rfl, rfl⟩
  unfold move
  simp only [ends_bind, ends_part, ends_ofExcept, hlinks, Except.ok.injEq, exists_eq_left',
    ends_within]
  refine hdeploy.mono ?_
  rintro b _ ⟨rfl, rfl⟩
  cases b with
  | true =>
    simp only [if_true, ends_change]
  | false =>
    simp only [Bool.false_eq_true, if_false, remark, ends_bind, ends_part, ends_note]
    exact ⟨hnote _ _, rfl⟩

end SlotSelection

namespace Fleet

variable {μ κ σ ν : Type} [DecidableEq μ] [Journal σ]

/-- After any number of deployments to MAC layers that started without links, whatever those came
to, a schedule within the slotframes is accepted if and only if every MAC layer has room for the
table behind the edits of every slot of the schedule. As long as no deployment raised a fault, that
table has the new links up to the slot and the old ones behind it. So a scheduler whose MAC layer
has room for one link can leave its link where it is or move it to a later slot, but never to an
earlier one. -/
theorem deploy_accepted_iff (f : Fleet μ κ σ ν) {s : σ}
    (hmac : ∀ i ∈ f.ids, f.shelf.get? i s = some (f.mac i))
    (hempty : ∀ i ∈ f.ids, (f.mac i).links = .empty) (history : List Configuration)
    {next : Configuration} {links : Links} (hlinks : next.links = .ok links)
    (hrange : f.CoversAll links) :
    ∃ outcomes d t, ∃ held : μ → Links, ∃ answer d' t',
      Deployer.attemptEach f.access history (.create .links f.ids, s)
        = .ok outcomes (.links d, t) ∧
      (∀ i ∈ f.ids, (held i).Distinct ∧
        f.shelf.get? i t = some ((f.mac i).withLinks (held i))) ∧
      Deployer.deploy f.access next (.links d, t) = .ok answer (.links d', t') ∧
      (answer = true ↔ ∀ i ∈ f.ids, ∀ slot ∈ links.slots,
        (f.mac i).HasRoom (LinkEdit.midway d.last links slot (held i).channel?)) ∧
      ((∀ o ∈ outcomes, ∃ answer, o = .ok answer) →
        (∀ i ∈ f.ids, (held i).Same d.last) ∧
        (answer = true ↔ ∀ i ∈ f.ids, ∀ slot ∈ links.slots, (f.mac i).HasRoomFor
          (links.slots.countP (· ≤ slot) + d.last.slots.countP (slot < ·))) ∧
        ∀ {α : Type} [Arith α] (needs : SlotSelection.Needs μ σ α) (a : SlotSelection μ α)
          (slot : Nat), needs.macs = f.access → a.deployer = d →
          next = .pairs [(.int slot, a.channelOffset)] → f.ids ≠ [] →
          (∀ i ∈ f.ids, (f.mac i).capacity = some (.int 1)) →
          Ends (SlotSelection.move needs slot) (a, t) fun _ p => p.1.action =
            if ∀ old ∈ d.last.slots, old ≤ slot then (slot : Int) else a.action) := by
  have hstart := (inStep_create hmac hempty).facing
  obtain ⟨outcomes, ⟨_, t⟩, hruns, d, tables, rfl, hface, hlevel⟩ :=
    ends_iff.1 (hstart.ends_attemptEach history)
  have hdistinct := Configuration.distinct_links hlinks
  obtain ⟨answer, d', t', hrun, hanswer⟩ := hface.deploy_eq_ok hdistinct hrange
  rw [hface.roomyAll_planOf hdistinct] at hanswer
  have : Nonempty Links := ⟨.empty⟩
  choose! held hget hheld htables using hface.holds.links
  have hdeploy : Deployer.deploy f.access next (.links d, t) = .ok answer (.links d', t') :=
    Deployer.deploy_eq_ok_of_links hlinks hrun
  refine ⟨outcomes, d, t, held, answer, d', t', hruns, fun i hi => ⟨hheld i hi, hget i hi⟩,
    hdeploy, ?_, fun hok => ?_⟩
  · rw [hanswer]
    exact forall₂_congr fun i hi => by rw [htables i hi]
  · have hlevel := hlevel hok fun _ _ => rfl
    have hcount : answer = true ↔ ∀ i ∈ f.ids, ∀ slot ∈ links.slots, (f.mac i).HasRoomFor
        (links.slots.countP (· ≤ slot) + d.last.slots.countP (slot < ·)) := by
      rw [hanswer]
      exact forall₂_congr fun i hi =>
        forall₂_congr fun slot _ => hface.hasRoom_midway hdistinct hlevel hi slot
    refine ⟨fun i hi => ?_, hcount, ?_⟩
    · exact Links.same_of_channel?_eq (hheld i hi) hface.distinct
        ((htables i hi).trans (hlevel i hi))
    · intro α _ needs a slot hmacs hd hnext hne hcapacity
      have hlink : a.linkIn slot = .ok links := by
        rw [hnext] at hlinks
        exact hlinks
      have hbehind : answer = true ↔ ∀ old ∈ d.last.slots, old ≤ slot := by
        rw [hcount, SlotSelection.slots_linkIn hlink]
        simp only [List.mem_singleton, forall_eq]
        obtain ⟨i, hi⟩ := List.exists_mem_of_ne_nil _ hne
        constructor
        · exact fun hall => (Mac.hasRoomFor_move (hcapacity i hi) _ _).1 (hall i hi)
        · exact fun hall j hj => (Mac.hasRoomFor_move (hcapacity j hj) _ _).2 hall
      refine (SlotSelection.ends_move f.lawful.obstacle?_eq_none hlink
        (hmacs ▸ hd ▸ hrun)).mono fun _ p hp => ?_
      rw [hp]
      exact if_congr hbehind rfl rfl

end Fleet

namespace Pan

/-- One link, and then one in the slot before it, for a device with room for a single link. -/
theorem deploy_accepted_iff_cramped :
    ∃ outcomes d t answer d' t',
      Deployer.attemptEach macAccess [.pairs [(.int 1, .int 0)]] (.create .links [1], cramped)
        = .ok outcomes (.links d, t) ∧
      Deployer.deploy macAccess (.pairs [(.int 0, .int 0)]) (.links d, t)
        = .ok answer (.links d', t') ∧
      ((∀ o ∈ outcomes, ∃ answer, o = .ok answer) → (answer = true ↔
        (crampedMac 1).HasRoomFor ([0].countP (· ≤ 0) + d.last.slots.countP (0 < ·)))) := by
  have hsized : ∀ i ∈ [1], (crampedMac i).IsSized := by
    simp [Mac.IsSized, crampedMac, Datum.number?]
  have hrange : (fleet (ρ := Permuted) (α := Float) [1] (List.nodup_singleton 1) crampedMac
      hsized).CoversAll ⟨[(0, 0)]⟩ := by
    simp [Fleet.CoversAll, Mac.Covers, fleet, crampedMac]
  obtain ⟨outcomes, d, t, held, answer, d', t', hruns, -, hnext, -, hlevel⟩ :=
    Fleet.deploy_accepted_iff (fleet [1] (List.nodup_singleton 1) crampedMac hsized)
      (s := cramped) (by simp [fleet, shelf, cramped]) (fun _ _ => rfl)
      [.pairs [(.int 1, .int 0)]]
      (show (Configuration.pairs [(.int 0, .int 0)]).links = .ok ⟨[(0, 0)]⟩ from rfl) hrange
  refine ⟨outcomes, d, t, answer, d', t', hruns, hnext, fun hok => ?_⟩
  rw [(hlevel hok).2.1]
  simp [fleet, Links.slots]

/-- A device with room for a single link has one in slot 1. The schedule with one link in slot 0,
of which there is room for, is refused: the new link would be added before the old one is deleted. -/
theorem deploy_refuses_earlier_slot :
    (crampedMac 1).capacity = some (.int 1) ∧
      ∃ d t, Deployer.attemptEach macAccess
        [.pairs [(.int 1, .int 0)], .pairs [(.int 0, .int 0)]] (.create .links [1], cramped)
          = .ok [.ok true, .ok false] (.links d, t) ∧
        d.last = ⟨[(1, 0)]⟩ ∧ d.failures = 1 := by
  have hup : LinkEdit.between .empty ⟨[(1, 0)]⟩ = [.add 1 0] := by
    rw [LinkEdit.between_eq_insertionSort]
    rfl
  have hdown : LinkEdit.between ⟨[(1, 0)]⟩ ⟨[(0, 0)]⟩ = [.add 0 0, .delete 1 0] := by
    rw [LinkEdit.between_eq_insertionSort]
    rfl
  have hruns : ∃ t u,
      LinkDeployer.deploy macAccess ⟨[(1, 0)]⟩ (⟨[1], .empty, 0⟩, cramped)
        = .ok true (⟨[1], ⟨[(1, 0)]⟩, 0⟩, t) ∧
      LinkDeployer.deploy macAccess ⟨[(0, 0)]⟩ (⟨[1], ⟨[(1, 0)]⟩, 0⟩, t)
        = .ok false (⟨[1], ⟨[(1, 0)]⟩, 1⟩, u) := by
    simp only [LinkDeployer.deploy, bind, EStateM.bind, part, hup, hdown]
    exact ⟨_, _, rfl, rfl⟩
  obtain ⟨t, u, hfirst, hsecond⟩ := hruns
  have hone : (Configuration.pairs [(.int 1, .int 0)]).links = .ok ⟨[(1, 0)]⟩ := rfl
  have hother : (Configuration.pairs [(.int 0, .int 0)]).links = .ok ⟨[(0, 0)]⟩ := rfl
  exact ⟨rfl, _, u, Deployer.attemptEach_cons_eq_ok (Deployer.deploy_eq_ok_of_links hone hfirst)
    (Deployer.attemptEach_cons_eq_ok (Deployer.deploy_eq_ok_of_links hother hsecond) rfl),
    rfl, rfl⟩

end Pan
end TschLearning
