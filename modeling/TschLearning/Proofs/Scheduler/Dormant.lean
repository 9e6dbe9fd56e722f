import TschLearning.Proofs.Scheduler.Effects

/-! A channel scheduler while it settles. It has learned nothing and explores nothing, so it draws
nothing and takes the first channel for every slot; outcomes only change what it has counted. -/

namespace TschLearning

open TschLearning.Action

theorem Arith.exceeds_self {α : Type} [Arith α] (a : α) : Arith.exceeds a a = false := by
  unfold exceeds
  cases Arith.le a a <;> rfl

/-- Among equal values the first one is the best. -/
theorem bestPosition_replicate {α : Type} [Arith α] (a : α) (n : Nat) :
    bestPosition Arith.exceeds (List.replicate n a) = 0 := by
  have hfrom : ∀ n next, bestPositionFrom Arith.exceeds a 0 next (List.replicate n a) = 0 := by
    intro n
    induction n with
    | zero => exact fun _ => rfl
    | succ n ih =>
      intro next
      rw [List.replicate_succ, bestPositionFrom, Arith.exceeds_self]
      exact ih (next + 1)
  cases n with
  | zero => rfl
  | succ n => exact hfrom n 1

/-- In a table without any value but zero the first channel is the best. -/
theorem ValueTable.bestIn_empty {α : Type} [Arith α] (slots channels slot : Nat) :
    bestIn (Grid.empty slots channels (0 : α)) slot = 0 := by
  have hrow : (Grid.empty slots channels (0 : α)).row slot = List.replicate channels 0 := by
    refine List.eq_replicate_iff.2 ⟨?_, fun a ha => ?_⟩
    · rw [Grid.row, List.length_map, List.length_range]
      rfl
    · obtain ⟨ch, -, rfl⟩ := List.mem_map.1 ha
      exact Grid.cell_empty ..
  unfold bestIn
  rw [hrow, bestPosition_replicate]

namespace ChannelHopping

variable {σ α : Type} {slots channels : Nat} {c : ChannelHopping α}

def lowest (slots : Nat) : List Datum := Datum.ofInts (List.replicate slots 0)

theorem isConfiguration_lowest (hpos : 0 < channels) :
    IsConfiguration slots channels (lowest slots) := by
  refine ⟨_, rfl, List.length_replicate, fun i hi => ?_⟩
  obtain rfl := List.eq_of_mem_replicate hi
  exact ⟨Int.le_refl 0, Int.ofNat_lt.2 hpos⟩

/-- A scheduler that has learned nothing, and explores only once it learns. -/
structure Blank [Zero α] (slots channels : Nat) (c : ChannelHopping α) : Prop where
  table_eq : c.table = Grid.empty slots channels 0
  outcomes_eq : c.outcomes = Grid.empty slots channels false
  prudent : c.params.exploreWhileSettling = false

theorem Blank.recounted [Zero α] (h : Blank slots channels c) (m n : Nat) :
    Blank slots channels (c.recounted m n) := { h with }

theorem Blank.answered [Zero α] (h : Blank slots channels c) (d : Deployment) :
    Blank slots channels (c.answered d) := by
  unfold ChannelHopping.answered
  split
  · exact { h with }
  · exact h

theorem Blank.forgetful [Zero α] (h : Blank slots channels c) :
    Blank slots channels c.forgetful := by
  refine { h with outcomes_eq := ?_ }
  show c.outcomes.clear = _
  rw [h.outcomes_eq]
  rfl

theorem Blank.slots_table [Zero α] (h : Blank slots channels c) : c.table.slots = slots := by
  rw [h.table_eq]
  rfl

/-- Nothing is learned from a slotframe that is closed while the scheduler settles. -/
theorem Blank.closed [Arith α] (h : Blank slots channels c) (hsettling : c.active = false)
    (d : Deployment) : Blank slots channels (c.closed d) := by
  have hticked : Blank slots channels c.ticked := { h with }
  unfold ChannelHopping.closed
  rw [taught_of_not_active (show c.ticked.active = false from hsettling)]
  exact { hticked.forgetful.answered d with }

/-- What is deployed at the start of a slot teaches nothing. -/
theorem Blank.reached [Arith α] (h : Blank slots channels c) (hsettling : c.active = false)
    {asn : Nat} {first policy : List Deployment} (hd : Handed slots channels c asn first policy) :
    Blank slots channels (c.reached asn first policy) := by
  unfold ChannelHopping.reached
  set begun := first.foldl ChannelHopping.answered { c with asn := some asn }
  have hblank : Blank slots channels begun ∧ begun.active = false := by
    have hat : Blank slots channels ({ c with asn := some asn } : ChannelHopping α) := { h with }
    have hfirst := hd.first_eq
    split at hfirst
    · obtain ⟨answer, rfl⟩ := hfirst
      exact ⟨hat.answered _, (congrArg Activation.active (activation_answered _ _)).trans hsettling⟩
    · subst hfirst
      exact ⟨hat, hsettling⟩
  have hpolicy := hd.policy_eq
  split at hpolicy
  · obtain ⟨d, rfl, -⟩ := hpolicy
    exact hblank.1.closed hblank.2 d
  · subst hpolicy
    exact hblank.1

/-! ### Outcomes -/

variable [Journal σ]

/-- An outcome only counts, and is noted at most once. -/
theorem settles_recordOutcome (hsettling : c.active = false) {s : σ}
    (hs : ∀ n, Journal.obstacle? n s = none) (slot channel : Datum) (success : Bool) :
    Settles (recordOutcome slot channel success) (c, s) fun _ p =>
      (∃ m n, p.1 = c.recounted m n) ∧ (p.2 = s ∨ ∃ n, p.2 = Journal.enter n s) := by
  have hsame : ∃ m n, c = c.recounted m n := ⟨_, _, rfl⟩
  unfold recordOutcome
  rw [settles_part_bind, settles_ofExcept_bind]
  cases checkIndex (possessive ownerLabel) "slot" c.table.slots slot with
  | error f => exact ⟨hsame, .inl rfl⟩
  | ok sl =>
    dsimp only
    rw [settles_ofExcept_bind]
    cases checkIndex (possessive ownerLabel) "channel" c.table.channels channel with
    | error f => exact ⟨hsame, .inl rfl⟩
    | ok ch =>
      have hnote : ∀ n : Note, Journal.obstacle? n (c.counting success, s) = none := hs
      simp only [settles_change_bind, hsettling, Bool.not_false, if_true, remark,
        settles_part_bind, settles_note, hnote]
      exact ⟨⟨_, _, rfl⟩, .inr ⟨_, rfl⟩⟩

/-! ### Slot boundaries -/

variable {needs : Needs σ α} {log : List (Effect α)} {s : σ}

theorem Needs.Proper.ends_note {κ : Type} (h : needs.Proper channels) (k : κ) (n : Note) :
    Ends (Action.note n) (k, log, s) fun _ p => ∃ t, p = (k, log, t) :=
  Action.ends_note.2 ⟨h.obstacle?_eq_none n s, _, rfl⟩

theorem Needs.Proper.ends_remark (h : needs.Proper channels) (c : ChannelHopping α) (r : Remark) :
    Ends (remark r) (c, log, s) fun _ p => ∃ t, p = (c, log, t) := by
  unfold remark
  rw [ends_bind, ends_part]
  exact h.ends_note c _

/-- A boundary that passes advances the gate. -/
theorem Needs.Proper.ends_settle (h : needs.Proper channels) (c : ChannelHopping α) :
    Ends settle (c, log, s) fun _ p =>
      ∃ t, p = ({ c with activation := c.activation.advance }, log, t) := by
  unfold settle Settling.epochPassed Activation.advance
  simp only [ends_bind, ends_part, ends_within]
  cases c.activation.active with
  | true => exact ⟨s, rfl⟩
  | false =>
    simp only [Bool.false_eq_true, if_false, ends_bind, ends_change, ends_part]
    apply (h.ends_note c.activation.counted _).mono
    rintro _ _ ⟨s', rfl⟩
    cases c.activation.counted.isDue with
    | false => exact ⟨s', rfl⟩
    | true =>
      simp only [Bool.not_true, Bool.false_eq_true, if_false, if_true, ends_bind, ends_change,
        ends_part]
      apply (h.ends_note c.activation.counted.opened _).mono
      rintro _ _ ⟨t, rfl⟩
      exact ⟨t, rfl⟩

theorem Needs.Proper.ends_deployConfiguration (h : needs.Proper channels)
    {configuration : List Datum} (hlen : configuration.length = c.table.slots) :
    Ends (deployConfiguration needs.tracing configuration) (c, log, s) fun answer p =>
      ∃ t, p = (c.answered ⟨configuration, answer⟩,
        log ++ [.deployed ⟨configuration, answer⟩], t) := by
  unfold deployConfiguration
  simp only [ends_bind, ends_part, ne_eq, hlen, not_true_eq_false, if_false, ends_outside]
  refine ends_jotted.2 ((h.deploy_ends configuration s).mono ?_)
  rintro answer s' -
  cases answer with
  | true =>
    simp only [if_true, ends_bind, ends_change, ends_pure]
    exact h.ends_remark _ _
  | false =>
    simp only [Bool.false_eq_true, if_false, ends_bind, ends_pure]
    exact h.ends_remark _ _

variable [Arith α]

/-- Without any value but zero, and without exploration, the first channel is chosen. -/
theorem Needs.Proper.ends_chooseAction (h : needs.Proper channels) (hb : Blank slots channels c)
    (hsettling : c.active = false) {slot : Nat} (hslot : slot < slots) :
    Ends (chooseAction needs.tracing (.int slot)) (c, log, s) fun i p =>
      i = 0 ∧ ∃ t, p = (c, log, t) := by
  have hindex : checkIndex (possessive ("<" ++ Selection.channelLabel ++ ">")) "slot"
      c.table.slots (.int slot) = .ok slot := by
    rw [hb.slots_table, checkIndex_int_of_lt _ _ (Int.natCast_nonneg slot) (Int.ofNat_lt.2 hslot),
      Int.toNat_natCast]
  have hbest : c.table.bestIn slot = 0 := by
    rw [hb.table_eq]
    exact ValueTable.bestIn_empty slots channels slot
  unfold chooseAction Selection.chooseChannel
  simp only [ends_bind, ends_part, hindex, ends_ofExcept, Except.ok.injEq, exists_eq_left',
    hsettling, hb.prudent, Bool.or_false, Selection.explores, Bool.false_eq_true, if_false,
    ends_pure, hbest]
  exact (h.ends_note c _).mono fun _ _ hp => ⟨rfl, hp⟩

theorem Needs.Proper.ends_chooseEach (h : needs.Proper channels) (hb : Blank slots channels c)
    (hsettling : c.active = false) {todo : List Nat} (htodo : ∀ slot ∈ todo, slot < slots) :
    Ends (chooseEach needs.tracing todo) (c, log, s) fun policy p =>
      policy = List.replicate todo.length 0 ∧ ∃ t, p = (c, log, t) := by
  induction todo generalizing s with
  | nil => exact ⟨rfl, s, rfl⟩
  | cons slot todo ih =>
    rw [List.forall_mem_cons] at htodo
    unfold chooseEach
    simp only [ends_bind, ends_pure]
    refine (h.ends_chooseAction hb hsettling htodo.1).mono ?_
    rintro _ _ ⟨rfl, s', rfl⟩
    refine (ih htodo.2).mono ?_
    rintro _ _ ⟨rfl, hp⟩
    exact ⟨rfl, hp⟩

/-- The policy that is deployed takes the first channel for every slot, and nothing is drawn. -/
theorem Needs.Proper.ends_deployPolicy (h : needs.Proper channels) (hb : Blank slots channels c)
    (hsettling : c.active = false) :
    Ends (deployPolicy needs.tracing) (c, log, s) fun answer p =>
      ∃ t, p = (c.answered ⟨lowest slots, answer⟩, log ++ [.deployed ⟨lowest slots, answer⟩], t) := by
  unfold deployPolicy computePolicy
  simp only [ends_bind, ends_part, hb.slots_table]
  refine (h.ends_chooseEach hb hsettling fun slot hslot => List.mem_range.1 hslot).mono ?_
  rintro _ _ ⟨rfl, t, rfl⟩
  rw [List.length_range]
  refine h.ends_deployConfiguration ?_
  rw [hb.slots_table]
  exact (List.length_map _).trans List.length_replicate

theorem Needs.Proper.ends_updateEpoch (h : needs.Proper channels) (hb : Blank slots channels c)
    (hsettling : c.active = false) :
    Ends (updateEpoch needs.tracing) (c, log, s) fun _ p => ∃ answer t,
      p = (c.closed ⟨lowest slots, answer⟩, log ++ [.deployed ⟨lowest slots, answer⟩], t) := by
  have htaught : c.ticked.taught = c.ticked := taught_of_not_active hsettling
  have hticked : Blank slots channels c.ticked := { hb with }
  unfold updateEpoch
  have hact : ({ c with epochs := c.epochs + 1 } : ChannelHopping α).active = false := hsettling
  simp only [ends_bind, ends_change, ends_part, hact, Bool.false_eq_true, if_false, Bool.not_false,
    if_true]
  refine (h.ends_deployPolicy hticked.forgetful hsettling).mono ?_
  rintro answer _ ⟨s', rfl⟩
  refine (h.ends_settle _).mono ?_
  rintro _ _ ⟨t, rfl⟩
  refine ⟨answer, t, ?_⟩
  rw [closed, htaught, activation_answered]
  rfl

/-- A slot that closes a slotframe or not: nothing is drawn, and the policy, if one is deployed,
takes the first channel for every slot. -/
theorem Needs.Proper.ends_closing (h : needs.Proper channels) (hpos : 0 < channels)
    (hb : Blank slots channels c) (hsettling : c.active = false) (asn : Nat) :
    Ends (if Closes slots asn then updateEpoch needs.tracing else pure ()) (c, log, s) fun _ p =>
      ∃ policy t, (if Closes slots asn then
          ∃ d, policy = [d] ∧ IsConfiguration slots channels d.configuration else policy = []) ∧
        (∀ d ∈ policy, d.configuration = lowest slots) ∧
        p = (policy.foldl closed c, log ++ policy.map .deployed, t) := by
  by_cases hcloses : Closes slots asn
  · simp only [if_pos hcloses]
    refine (h.ends_updateEpoch hb hsettling).mono ?_
    rintro _ _ ⟨answer, t, rfl⟩
    exact ⟨[⟨lowest slots, answer⟩], t, ⟨_, rfl, isConfiguration_lowest hpos⟩, by simp, rfl⟩
  · simp only [if_neg hcloses]
    exact ⟨[], s, rfl, by simp, by simp⟩

/-- The start of a slot later than the last one: nothing is drawn, and the policy, if one is
deployed, takes the first channel for every slot. -/
theorem Needs.Proper.ends_onSlotBoundary (h : needs.Proper channels)
    (hc : c.Valid slots channels) (hb : Blank slots channels c) (hsettling : c.active = false)
    {asn : Nat} (hlater : ∀ last, c.asn = some last → last < asn) :
    Ends (onSlotBoundary needs.tracing (.int asn)) (c, log, s) fun _ p => ∃ first policy t,
      Handed slots channels c asn first policy ∧
        (∀ d ∈ policy, d.configuration = lowest slots) ∧
        p = (c.reached asn first policy, log ++ (first ++ policy).map .deployed, t) := by
  have hasn : checkSlotNumber (.int asn) = .ok asn := by simp [checkSlotNumber]
  unfold onSlotBoundary
  simp only [ends_bind, hasn, ends_ofExcept, Except.ok.injEq, exists_eq_left', ends_part,
    hc.slots_table]
  cases hlast : c.asn with
  | none =>
    simp only [ends_bind, ends_change, Option.isNone_none, if_true]
    refine (h.ends_deployConfiguration (c := { c with asn := some asn })
      (hc.configured.length_eq.trans hc.slots_table.symm)).mono ?_
    rintro answer _ ⟨s', rfl⟩
    have hbegun : Blank slots channels ({ c with asn := some asn } : ChannelHopping α) :=
      { hb with }
    refine (h.ends_closing hc.channels_pos (hbegun.answered ⟨c.configuration, answer⟩) ?_ asn).mono ?_
    · exact (congrArg Activation.active (activation_answered _ _)).trans hsettling
    rintro _ _ ⟨policy, t, hpolicy, hlowest, rfl⟩
    refine ⟨[⟨c.configuration, answer⟩], policy, t, ⟨?_, hpolicy⟩, hlowest, ?_⟩
    · rw [hlast]
      exact ⟨answer, rfl⟩
    · simp [reached]
  | some last =>
    have hnot : ¬asn ≤ last := Nat.not_le.2 (hlater last hlast)
    simp only [if_neg hnot, ends_bind, ends_change, Option.isNone_some, Bool.false_eq_true,
      if_false]
    have hbegun : Blank slots channels ({ c with asn := some asn } : ChannelHopping α) :=
      { hb with }
    refine (h.ends_closing hc.channels_pos hbegun hsettling asn).mono ?_
    rintro _ _ ⟨policy, t, hpolicy, hlowest, rfl⟩
    refine ⟨[], policy, t, ⟨?_, hpolicy⟩, hlowest, rfl⟩
    rw [hlast]
    rfl

end ChannelHopping
end TschLearning
