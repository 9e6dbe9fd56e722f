import TschLearning.Proofs.Action.Store
import TschLearning.Proofs.Scheduler.Fresh
import TschLearning.Proofs.Testbed.Accounts

/-! Statistics and channel schedulers count the same transmissions. However many slots a network
runs, whatever is deployed meanwhile, and whichever devices share a scheduler or a name: the
schedulers that its devices are attached to have counted, taken together, what its statistics have.
Statistics can be logged at any time, which changes no count. -/

namespace TschLearning.Testbed

open TschLearning.Action

/-- The transmissions that a channel scheduler has counted, and those with success among them. -/
def tallied (t : Testbed) (scheduler : Nat) : Nat × Nat :=
  (counted t (.hopping scheduler)).getD (0, 0)

/-- The transmissions of a network go to statistics once each, and every device is attached to one
of the channel schedulers. -/
structure Watching (net : Network Nat ObserverRef Float) (book : Nat) (schedulers : List Nat)
    (t : Testbed) : Prop where
  once : net.observers.callees.count (.statistics book) = 1
  attached : ∀ i ∈ net.macs, ∀ m, macs.get? i t = some m →
    ∃ k ∈ schedulers, m.sink = some (.hopping k)

/-- What some channel schedulers have counted, taken together, is what the statistics have. -/
structure Matching (schedulers : List Nat) (s : Statistics) (t : Testbed) : Prop where
  attempts_eq : (schedulers.map fun k => (tallied t k).1).sum = s.totalAttempts
  successes_eq : (schedulers.map fun k => (tallied t k).2).sum = s.totalSuccesses
  successes_le : ∀ k ∈ schedulers, (tallied t k).2 ≤ (tallied t k).1

variable {network book n asn : Nat} {schedulers : List Nat} {s s' : Statistics}
  {a : Accounts SinkRef} {t t' : Testbed} {u : NetworkUnit}

/-! ### Slots -/

theorem Watching.accounted (h : Watching u.network book schedulers t)
    (ha : accounts book t = some a) :
    Accounted book u.network.macs (schedulers.map .hopping) a t where
  accounts_eq := ha
  attached i hi m hm := by
    obtain ⟨k, hk, hsink⟩ := h.attached i hi m hm
    exact ⟨.hopping k, List.mem_map_of_mem hk, hsink⟩

theorem matching_of_balanced (ha : counted t = a.counts)
    (h : a.Balanced (schedulers.map .hopping)) : Matching schedulers a.book t where
  attempts_eq := by
    rw [← h.attempts_eq, List.map_map]
    simp only [tallied, ha]
    rfl
  successes_eq := by
    rw [← h.successes_eq, List.map_map]
    simp only [tallied, ha]
    rfl
  successes_le k hk := by
    simp only [tallied, ha]
    exact h.successes_le _ (List.mem_map_of_mem hk)

theorem meets_runSlots (hu : networks.get? network t = some u)
    (h : Watching u.network book schedulers t) (hschedulers : schedulers.Nodup)
    (ha : accounts book t = some a) (hbalanced : a.Balanced (schedulers.map .hopping)) :
    Meets True (runSlots network n) t fun _ t' => ∃ b,
      accounts book t' = some b ∧ b.Balanced (schedulers.map .hopping) := by
  have hsinks : (schedulers.map SinkRef.hopping).Nodup :=
    hschedulers.map fun _ _ hk => SinkRef.hopping.inj hk
  unfold runSlots
  rw [meets_bind]
  refine networks.meets_read (fun v hv => ?_) fun _ => trivial
  rw [Option.some.inj (hv.symm.trans hu), meets_bind]
  refine networks.meets_run (fun v hv => ?_) fun _ => trivial
  rw [Option.some.inj (hv.symm.trans hu), meets_within]
  refine (Network.meets_runSlots (audited book u.rng _ schedulers) hsinks h.once rfl n
    (h.accounted ha) hbalanced).mono ?_
  rintro _ ⟨net, v⟩ ⟨-, b, hb, hbalanced⟩
  rw [meets_bind]
  refine networks.meets_read (fun _ _ => ?_) fun _ => trivial
  exact ⟨b, (Accounted.congr hb rfl rfl rfl).accounts_eq, hbalanced⟩

/-! ### Logging -/

/-- The same counts still match. -/
theorem Matching.congr (h : Matching schedulers s t) (hs : s.SameCounts s')
    (ht : counted t' = counted t) : Matching schedulers s' t' where
  attempts_eq := by
    simp only [tallied, ht, hs.totalAttempts_eq]
    exact h.attempts_eq
  successes_eq := by
    simp only [tallied, ht, hs.totalSuccesses_eq]
    exact h.successes_eq
  successes_le k hk := by
    simp only [tallied, ht]
    exact h.successes_le k hk

/-- The statistics of a handle have the counts of `s`, and what the schedulers have counted matches
them. -/
def Kept (book : Nat) (schedulers : List Nat) (s : Statistics) (t : Testbed) : Prop :=
  ∃ s', statistics.get? book t = some s' ∧ s.SameCounts s' ∧ Matching schedulers s' t

/-- Logging statistics changes no count, even if the names of devices cannot be put in order. -/
theorem keeps_logStatistics :
    Keeps (Kept book schedulers s) (fun _ => True) (logStatistics book) := by
  have hnote : ∀ (n : Note) t, Kept book schedulers s t →
      Kept book schedulers s (Journal.enter n t) := by
    rintro n t ⟨s', hs', hsame, hmatching⟩
    exact ⟨s', hs', hsame, hmatching.congr (.refl s') rfl⟩
  have hlog : ∀ s' : Statistics, Keeps (Kept book schedulers s) (fun _ => True) s'.log := by
    intro s'
    unfold Statistics.log
    dsimp only
    split
    · exact (keeps_throw (R := fun _ => False) _).bind fun _ hno => hno.elim
    · exact keeps_forM fun r _ => keeps_note hnote (.ofComponent .statistics Statistics.label r)
  unfold logStatistics
  refine (statistics.keeps_read book).bind fun s' _ => ?_
  split
  · refine (statistics.keeps_update ?_).bind fun _ _ => hlog s'
    rintro old _ _ t ⟨s', hs', hsame, hmatching⟩ hold hlogged
    cases hlogged
    rw [Option.some.inj (hs'.symm.trans hold)] at hsame hmatching
    have hkept := Statistics.sameCounts_logged old
    exact ⟨old.logged, shelf_get?_put_self (fun _ _ => rfl) hold _, hsame.trans hkept,
      hmatching.congr hkept rfl⟩
  · exact hlog s'

/-! ### Slots from the first transmission on -/

/-- After any number of slots, what the schedulers have counted is what the statistics have, by
device and by channel, and stays so however often the statistics are logged. -/
theorem schedulers_match_statistics (hu : networks.get? network t = some u)
    (h : Watching u.network book schedulers t) (hschedulers : schedulers.Nodup)
    (hempty : statistics.get? book t = some .empty)
    (hfresh : ∀ k ∈ schedulers, tallied t k = (0, 0)) (hrun : runSlots network n t = .ok asn t') :
    ∃ s, statistics.get? book t' = some s ∧ Matching schedulers s t' ∧ s.Coherent ∧
      Keeps (Kept book schedulers s) (fun _ => True) (logStatistics book) := by
  have ha : accounts book t = some { counts := counted t, book := .empty } :=
    accounts_eq_some.2 ⟨rfl, hempty⟩
  have hattempts : ∀ k ∈ schedulers, (tallied t k).1 = 0 := fun k hk => by rw [hfresh k hk]
  have hsuccesses : ∀ k ∈ schedulers, (tallied t k).2 = 0 := fun k hk => by rw [hfresh k hk]
  have hbalanced : Accounts.Balanced (schedulers.map .hopping)
      { counts := counted t, book := .empty } := {
    attempts_eq := by
      rw [List.map_map]
      exact List.sum_eq_zero_iff_forall_eq_nat.2 (List.forall_mem_map.2 hattempts)
    successes_eq := by
      rw [List.map_map]
      exact List.sum_eq_zero_iff_forall_eq_nat.2 (List.forall_mem_map.2 hsuccesses)
    successes_le := List.forall_mem_map.2 fun k hk =>
      Nat.le_of_eq ((hsuccesses k hk).trans (hattempts k hk).symm)
    proper := Statistics.proper_empty }
  obtain ⟨b, hb, hbalanced⟩ := (meets_runSlots hu h hschedulers ha hbalanced).post hrun
  obtain ⟨hcounted, hbook⟩ := accounts_eq_some.1 hb
  exact ⟨b.book, hbook, matching_of_balanced hcounted hbalanced, hbalanced.proper.coherent,
    keeps_logStatistics⟩

/-! Two devices of one name, each attached to a scheduler of its own, which both own the only
slot. -/

section Twins

/-- A device with a frame to transmit. -/
def twinMac (scheduler : Nat) : Mac SinkRef where
  name := .text "twin"
  slots := .int 1
  channels := .int 2
  owned := [0]
  capacity := none
  links := .empty
  sequence := none
  queue := [⟨.null, .int 0, none⟩]
  sink := some (.hopping scheduler)
  asn := none

def twinScheduler (name : String) (deployer : Nat) : HoppingUnit where
  scheduler := (ChannelHopping.fresh (.level 0 0) (.text name) .ofModule 1 2).startingWith [0]
  deployer
  rng := 0

def twinNetwork : Network Nat ObserverRef Float where
  slots := .int 1
  channels := .int 2
  interference := ⟨[0, 0]⟩
  slotDuration := .ok (.int 1)
  traffic := .ok 0
  macs := [0, 1]
  asn := 0
  started := false
  observers := (Notifier.create (.text "transmission") (possessive Network.ownerLabel)).place
    (.statistics 0) (.number (.int 0))

def twins : Testbed where
  agenda := .fresh
  world := {
    log := .fresh none
    rngs := #[.ofScript [0, 0]]
    deployers := #[.create .links [.simulated 0 "twin"], .create .links [.simulated 1 "twin"]]
    hoppings := #[twinScheduler "left" 0, twinScheduler "right" 1]
    macs := #[twinMac 0, twinMac 1]
    networks := #[{ network := twinNetwork, rng := 0 }]
    statistics := #[.empty] }

/-- Both twins transmit in the slot, and fail. -/
theorem ends_runSlots_twins : Ends (runSlots 0 1) twins fun _ t =>
    (statistics.get? 0 t).map (fun s => (s.totalAttempts, s.totalSuccesses)) = some (2, 0) := by
  decide +kernel

theorem schedulers_match_statistics_twins :
    ∃ (asn : Nat) (t : Testbed) (s : Statistics), runSlots 0 1 twins = .ok asn t ∧
      statistics.get? 0 t = some s ∧ s.totalAttempts = 2 ∧ s.totalSuccesses = 0 ∧
      Matching [0, 1] s t ∧ s.Coherent := by
  obtain ⟨asn, t, hrun, hcounts⟩ := ends_iff.1 ends_runSlots_twins
  have hu : networks.get? 0 twins = some ⟨twinNetwork, 0⟩ := rfl
  have hwatching : Watching twinNetwork 0 [0, 1] twins := {
    once := by decide +kernel
    attached := by
      intro i hi m hm
      have hi : i ∈ [0, 1] := hi
      rw [List.mem_pair] at hi
      rcases hi with rfl | rfl
      · exact ⟨0, by decide, by cases hm; rfl⟩
      · exact ⟨1, by decide, by cases hm; rfl⟩ }
  obtain ⟨s, hs, hmatching, hcoherent, -⟩ := schedulers_match_statistics hu hwatching (by decide)
    rfl (by decide) hrun
  rw [hs] at hcounts
  obtain ⟨hattempts, hsuccesses⟩ := Prod.mk.inj (Option.some.inj hcounts)
  exact ⟨asn, t, s, hrun, hs, hattempts, hsuccesses, hmatching, hcoherent⟩

end Twins

end TschLearning.Testbed
