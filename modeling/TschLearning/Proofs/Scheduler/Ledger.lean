import TschLearning.Proofs.Scheduler.Fresh

/-! What a channel scheduler has learned, by the record of what has happened. A ledger knows
nothing of trackers, gates and flags: it counts the closed slotframes, keeps the configuration
accepted last and the cells with a success since the last closing, and takes down a lesson from
every closing beyond the threshold that comes after an accepted deployment. -/

namespace TschLearning

inductive Occurrence where
  | outcome (slot channel : Nat) (success : Bool)
  | deployed (d : Deployment)
  | closed

/-- What a closed slotframe teaches: the configuration in use, and the cells with a success. -/
structure Lesson where
  configuration : List Datum
  won : Nat → Nat → Bool

/-- The record so far: the number of closed slotframes, the configuration that was accepted last,
the cells with a success since the last closing, and the lessons. -/
structure Ledger where
  closings : Nat
  accepted : Option (List Datum)
  won : List (Nat × Nat)
  lessons : List Lesson

namespace Ledger

def empty : Ledger := ⟨0, none, [], []⟩

/-- The lesson of a slotframe that is closed now, if there is one. -/
def lesson? (threshold : Nat) (l : Ledger) : Option Lesson :=
  if threshold < l.closings + 1 then l.accepted.map (⟨·, fun t c => decide ((t, c) ∈ l.won)⟩)
  else none

def after (threshold : Nat) (l : Ledger) : Occurrence → Ledger
  | .outcome t c success => { l with won := if success then (t, c) :: l.won else l.won }
  | .deployed d => { l with accepted := if d.answer then some d.configuration else l.accepted }
  | .closed =>
    { l with
      closings := l.closings + 1
      won := []
      lessons := l.lessons ++ (l.lesson? threshold).toList }

/-- The table that lessons teach, one after the other. -/
def tableOf {α : Type} [Arith α] (params : Parameters α) (slots channels : Nat)
    (lessons : List Lesson) : ValueTable α :=
  lessons.foldl (fun table l => Lookahead.snapshot params l.won l.configuration table)
    (Grid.empty slots channels 0)

/-- One more lesson is one more application of the rule, which `Lookahead.cell_snapshot` writes
out. -/
theorem tableOf_concat {α : Type} [Arith α] (params : Parameters α) (slots channels : Nat)
    (lessons : List Lesson) (l : Lesson) :
    tableOf params slots channels (lessons ++ [l]) =
      Lookahead.snapshot params l.won l.configuration (tableOf params slots channels lessons) :=
  List.foldl_append

end Ledger

namespace ChannelHopping

variable {α : Type} [Arith α] {params : Parameters α} {slots channels : Nat} {l : Ledger}
  {c : ChannelHopping α}

/-- The scheduler has learned what the ledger says. -/
structure Follows (params : Parameters α) (slots channels : Nat) (l : Ledger)
    (c : ChannelHopping α) : Prop where
  valid : c.Valid slots channels
  params_eq : c.params = params
  deployed_eq : c.deployed = l.accepted.isSome
  configuration_eq : ∀ configuration ∈ l.accepted, c.configuration = configuration
  threshold_eq : c.activation.threshold = .int params.deactivationThreshold
  active_iff : c.activation.active = true ↔ params.deactivationThreshold ≤ l.closings
  count_eq : c.activation.active = false → c.activation.count = l.closings
  -- outcomes are recorded from the first slotframe on that will teach something
  outcomes_eq : ∀ t < slots, ∀ ch < channels,
    c.outcomes.cell t ch = (c.active && decide ((t, ch) ∈ l.won))
  table_eq : c.table = Ledger.tableOf params slots channels l.lessons

theorem follows_fresh {name : Datum} {voice : Voice} (hfits : Fits slots channels)
    {cs : List Int} (hlen : cs.length = slots) (hcs : ∀ i ∈ cs, 0 ≤ i ∧ i < channels) :
    Follows params slots channels .empty
      ((fresh params name voice slots channels).startingWith cs) where
  valid := {
    channels_pos := hfits.channels_pos
    slots_table := rfl
    channels_table := rfl
    slots_outcomes := rfl
    channels_outcomes := rfl
    blank_outcomes := rfl
    configured := ⟨cs, rfl, hlen, hcs⟩ }
  params_eq := rfl
  deployed_eq := rfl
  configuration_eq _ h := by cases h
  threshold_eq := rfl
  active_iff := by simp [startingWith, fresh, Ledger.empty]
  count_eq _ := rfl
  outcomes_eq t _ ch _ := by
    show (Grid.empty slots channels false).cell t ch = _
    simp [Ledger.empty]
  table_eq := rfl

theorem Follows.at (h : Follows params slots channels l c) (asn : Option Nat) :
    Follows params slots channels l { c with asn } :=
  { h with valid := { h.valid with } }

theorem Follows.answered (h : Follows params slots channels l c) {d : Deployment}
    (hd : IsConfiguration slots channels d.configuration) :
    Follows params slots channels (l.after params.deactivationThreshold (.deployed d))
      (c.answered d) := by
  have hvalid := h.valid.answered hd
  unfold ChannelHopping.answered at hvalid ⊢
  cases hanswer : d.answer with
  | false =>
    simp only [Ledger.after, hanswer, Bool.false_eq_true, if_false]
    exact h
  | true =>
    simp only [Ledger.after, hanswer, if_true] at hvalid ⊢
    exact { h with
      valid := hvalid
      deployed_eq := rfl
      configuration_eq := fun _ hcfg => Option.some.inj hcfg }

omit [Arith α] in
theorem Valid.informed (h : c.Valid slots channels) (slot channel : Nat) (success : Bool) :
    (c.informed slot channel success).Valid slots channels := by
  unfold ChannelHopping.informed
  split
  · cases success with
    | false => exact { h with }
    | true => exact { h with
        slots_outcomes := (Grid.slots_set ..).trans h.slots_outcomes
        channels_outcomes := (Grid.channels_set ..).trans h.channels_outcomes
        blank_outcomes := (Grid.blank_set ..).trans h.blank_outcomes }
  · exact { h with }

theorem Follows.informed (h : Follows params slots channels l c) {slot channel : Nat}
    (hslot : slot < slots) (hchannel : channel < channels) (success : Bool) :
    Follows params slots channels
      (l.after params.deactivationThreshold (.outcome slot channel success))
      (c.informed slot channel success) := by
  have hvalid := h.valid.informed slot channel success
  unfold ChannelHopping.informed at hvalid ⊢
  cases hact : c.active with
  | false =>
    simp only [hact, Bool.false_eq_true, if_false] at hvalid ⊢
    refine { h with valid := hvalid, outcomes_eq := fun t ht ch hch => ?_ }
    show c.outcomes.cell t ch = (c.active && _)
    rw [h.outcomes_eq t ht ch hch, hact]
    rfl
  | true =>
    simp only [hact, if_true] at hvalid ⊢
    refine { h with valid := hvalid, outcomes_eq := fun t ht ch hch => ?_ }
    show _ = (c.active && _)
    have hold := h.outcomes_eq t ht ch hch
    rw [hact, Bool.true_and] at hold ⊢
    cases success with
    | false => exact hold
    | true =>
      simp only [Ledger.after, if_true, List.mem_cons, Prod.mk.injEq]
      by_cases hcell : slot = t ∧ channel = ch
      · obtain ⟨rfl, rfl⟩ := hcell
        rw [Grid.cell_set_self (h.valid.slots_outcomes ▸ hslot)
          (h.valid.channels_outcomes ▸ hchannel)]
        simp
      · have hne : ¬(t = slot ∧ ch = channel) := fun e => hcell ⟨e.1.symm, e.2.symm⟩
        rw [Grid.cell_set_of_ne (by omega), hold]
        simp only [hne, false_or]

/-! ### Closing a slotframe -/

theorem advance_active {a : Activation} {threshold closings : Nat}
    (hthreshold : a.threshold = .int threshold)
    (hactive : a.active = true ↔ threshold ≤ closings)
    (hcount : a.active = false → a.count = closings) :
    a.advance.threshold = .int threshold ∧
      (a.advance.active = true ↔ threshold ≤ closings + 1) ∧
      (a.advance.active = false → a.advance.count = closings + 1) := by
  unfold Activation.advance
  cases ha : a.active with
  | true =>
    have hle := hactive.1 ha
    refine ⟨hthreshold, ⟨fun _ => by omega, fun _ => ha⟩, fun h => ?_⟩
    rw [if_pos rfl, ha] at h
    cases h
  | false =>
    have hdue : a.counted.isDue = decide (threshold ≤ closings + 1) := by
      simp only [Activation.isDue, Activation.counted, hthreshold, hcount ha, Datum.number?,
        Option.any_some, Number.le_int]
      exact decide_eq_decide.2 (by omega)
    rw [hdue]
    by_cases hle : threshold ≤ closings + 1
    · simp [hle, Activation.opened, hthreshold]
    · simp [hle, Activation.counted, hthreshold, ha, hcount ha]

theorem taught_eq (c : ChannelHopping α) : c.taught = { c with table := c.taught.table } := by
  unfold taught
  split <;> rfl

theorem table_taught_ticked (c : ChannelHopping α) : c.ticked.taught.table = c.taught.table := by
  unfold taught
  show (if c.active && c.deployed then _ else _ : ChannelHopping α).table = _
  split <;> rfl

/-- A closed slotframe teaches its lesson. -/
theorem Follows.table_taught (h : Follows params slots channels l c) :
    c.taught.table = Ledger.tableOf params slots channels
      (l.lessons ++ (l.lesson? params.deactivationThreshold).toList) := by
  unfold taught Ledger.lesson?
  rw [h.deployed_eq, show c.active = c.activation.active from rfl]
  by_cases hle : params.deactivationThreshold ≤ l.closings
  · rw [h.active_iff.2 hle, if_pos (Nat.lt_succ_of_le hle), Bool.true_and]
    cases hacc : l.accepted with
    | none =>
      simp only [Option.isSome_none, Bool.false_eq_true, if_false, Option.map_none,
        Option.toList_none, List.append_nil]
      exact h.table_eq
    | some configuration =>
      have hcfg := h.configuration_eq configuration hacc
      simp only [Option.isSome_some, if_true, Option.map_some, Option.toList_some, hcfg,
        h.params_eq]
      rw [Ledger.tableOf_concat, ← h.table_eq]
      refine Lookahead.snapshot_congr fun t ht ch hch _ => ?_
      rw [h.outcomes_eq t (h.valid.slots_table ▸ ht) ch (h.valid.channels_table ▸ hch),
        show c.active = true from h.active_iff.2 hle, Bool.true_and]
  · have hact : c.activation.active = false := Bool.eq_false_iff.2 fun e => hle (h.active_iff.1 e)
    have hnot : ¬params.deactivationThreshold < l.closings + 1 := by omega
    simp only [hact, Bool.false_and, Bool.false_eq_true, if_false, if_neg hnot, Option.toList_none,
      List.append_nil]
    exact h.table_eq

omit [Arith α] in
theorem answered_activation (c : ChannelHopping α) (d : Deployment) (activation : Activation) :
    ({ c with activation } : ChannelHopping α).answered d = { c.answered d with activation } := by
  unfold answered
  split <;> rfl

theorem Follows.closed (h : Follows params slots channels l c) {d : Deployment}
    (hd : IsConfiguration slots channels d.configuration) :
    Follows params slots channels
      ((l.after params.deactivationThreshold .closed).after params.deactivationThreshold
        (.deployed d)) (c.closed d) := by
  obtain ⟨hthreshold, hactive, hcount⟩ :=
    advance_active h.threshold_eq h.active_iff h.count_eq
  have hvalid := h.valid.ticked.taught.forgetful
  have htaught := h.table_taught
  unfold ChannelHopping.closed
  rw [← answered_activation]
  refine Follows.answered ?_ hd
  unfold ChannelHopping.forgetful at hvalid ⊢
  rw [taught_eq, table_taught_ticked] at hvalid ⊢
  exact {
    valid := { hvalid with }
    params_eq := h.params_eq
    deployed_eq := h.deployed_eq
    configuration_eq := h.configuration_eq
    threshold_eq := hthreshold
    active_iff := hactive
    count_eq := hcount
    outcomes_eq := fun t _ ch _ => by
      show (Grid.empty _ _ c.outcomes.blank).cell t ch = _
      rw [Grid.cell_empty, h.valid.blank_outcomes]
      simp [Ledger.after]
    table_eq := htaught }

end ChannelHopping
end TschLearning
