import TschLearning.Proofs.Learning.Bounded
import Mathlib.Algebra.Order.Field.Basic
import Mathlib.Tactic.Linarith

/-! How far the values of slots can come. An update takes the old value off twice and adds the
largest value of all, discounted. A learning rate of at most one half leaves a part of the old
value that is not negative, and then all values stay within what a slot would be worth that is
always rewarded the most and always the best: the value that the update leaves as it is. -/

namespace TschLearning.SlotReward

open TschLearning.Action

section Updates

variable {σ α : Type} [Arith α] [Journal σ] {p : Parameters α} {table : ValueTable α}

/-- The update of a slot of the table. -/
def rewardAt (p : Parameters α) (table : ValueTable α) (slot : Nat) (success : Bool) :
    Reward α where
  reward := p.reward success
  slot
  channel := 0
  old := table.cell slot 0
  new := target p (p.reward success) (table.cell slot 0) table.largest

theorem step_eq_ok {slot : Nat} (hslot : slot < table.slots) (hchannels : 0 < table.channels)
    (success : Bool) :
    step p table (.int slot) success = .ok (rewardAt p table slot success) := by
  simp only [step, ValueTable.value, ValueTable.checkSlot, ValueTable.checkChannel, bind,
    Except.bind, checkIndex_int_of_lt _ _ (Int.natCast_nonneg slot) (Int.ofNat_lt.2 hslot),
    checkIndex_int_of_lt _ _ (Int.le_refl 0) (Int.ofNat_lt.2 hchannels), Int.toNat_natCast]
  rfl

theorem ends_apply (hjournal : ∀ (n : Note) (s : σ), Journal.obstacle? n s = none) {slot : Nat}
    (hslot : slot < table.slots) (hchannels : 0 < table.channels) (success : Bool) (s : σ) :
    Ends (apply p (.int slot) success) (table, s) fun v u =>
      v = (rewardAt p table slot success).new ∧
        u.1 = (rewardAt p table slot success).enter table := by
  unfold apply
  rw [ends_bind, ends_part, ends_bind, ends_ofExcept]
  refine ⟨_, step_eq_ok hslot hchannels success, ?_⟩
  simp only [ends_bind, ends_change, ends_note, ends_pure]
  exact ⟨hjournal _ _, trivial, rfl⟩

omit [Journal σ] in
/-- An update is that of the slot that it was asked for. -/
theorem place_of_step {slot : Datum} {success : Bool} {r : Reward α}
    (h : step p table slot success = .ok r) : slot = .int r.slot ∧ r.channel = 0 := by
  obtain ⟨_, -, h⟩ := bind_eq_ok.1 h
  obtain ⟨t, hslot, h⟩ := bind_eq_ok.1 h
  cases h
  exact ⟨(checkIndex_eq_ok hslot).1, rfl⟩

/-- Whatever comes of an update, no other cell changes. -/
theorem settles_apply (p : Parameters α) (table : ValueTable α) (slot : Datum) (success : Bool)
    (s : σ) :
    Settles (apply p slot success) (table, s) fun _ u =>
      u.1.slots = table.slots ∧ u.1.channels = table.channels ∧
        ∀ t c, ¬(slot = .int (t : Nat) ∧ c = 0) → u.1.cell t c = table.cell t c := by
  unfold apply
  rw [settles_part_bind, settles_ofExcept_bind]
  cases hstep : step p table slot success with
  | error f => exact ⟨rfl, rfl, fun _ _ _ => rfl⟩
  | ok r =>
    obtain ⟨rfl, hchannel⟩ := place_of_step hstep
    have hframe : (r.enter table).slots = table.slots ∧
        (r.enter table).channels = table.channels ∧
        ∀ t c, ¬(Datum.int r.slot = .int (t : Nat) ∧ c = 0) →
          (r.enter table).cell t c = table.cell t c := by
      refine ⟨r.slots_enter table, r.channels_enter table,
        fun t c hne => r.cell_enter_of_ne table ?_⟩
      rw [hchannel]
      by_cases hslot : r.slot = t
      · exact .inr fun hc => hne ⟨by rw [hslot], hc.symm⟩
      · exact .inl hslot
    dsimp only
    rw [settles_change_bind, settles_bind, settles_note]
    split
    · exact hframe
    · exact hframe

/-- Applies the rule for one slot after the other, with what has come of it. -/
def applyEach (p : Parameters α) : List (Nat × Bool) → Action (ValueTable α × σ) Unit
  | [] => pure ()
  | (slot, success) :: rest => do
    let _ ← apply p (.int slot) success
    applyEach p rest

end Updates

/-- The value of a slot that is always rewarded the most and always the best. -/
def reach (p : Parameters ℚ) : ℚ := p.greatestReward / (2 - p.gamma)

/-- Every value is within what a slot can come to. -/
def Bounded (p : Parameters ℚ) (table : ValueTable ℚ) : Prop :=
  ∀ t < table.slots, ∀ c < table.channels, |table.cell t c| ≤ reach p

variable {p : Parameters ℚ} {table : ValueTable ℚ}

/-- The bound is the value that the update leaves as it is. -/
theorem reach_eq (hg : Arith.isProbability p.gamma = true) :
    (1 - 2 * p.alpha) * reach p + p.alpha * p.greatestReward + p.alpha * p.gamma * reach p =
      reach p := by
  obtain ⟨-, hg1⟩ := Arith.isProbability_iff.1 hg
  have hreach : reach p * (2 - p.gamma) = p.greatestReward :=
    div_mul_cancel₀ _ (by linarith)
  rw [← hreach]
  ring

theorem Bounded.abs_target_le (h : Bounded p table) (ha : Arith.isProbability p.alpha = true)
    (hhalf : p.alpha ≤ 1 / 2) (hg : Arith.isProbability p.gamma = true) {t : Nat}
    (ht : t < table.slots) (hc : 0 < table.channels) (success : Bool) :
    |target p (p.reward success) (table.cell t 0) table.largest| ≤ reach p := by
  obtain ⟨ha0, -⟩ := Arith.isProbability_iff.1 ha
  obtain ⟨hg0, -⟩ := Arith.isProbability_iff.1 hg
  obtain ⟨⟨u, hu, d, hd, hlargest⟩, -⟩ :=
    ValueTable.isGreatest_largest (t := table) (Nat.zero_lt_of_lt ht) hc
  have hold : |(1 - 2 * p.alpha) * table.cell t 0| ≤ (1 - 2 * p.alpha) * reach p := by
    rw [abs_mul, abs_of_nonneg (by linarith)]
    exact mul_le_mul_of_nonneg_left (h t ht 0 hc) (by linarith)
  have hreward : |p.alpha * p.reward success| ≤ p.alpha * p.greatestReward := by
    rw [abs_mul, abs_of_nonneg ha0]
    exact mul_le_mul_of_nonneg_left (p.abs_reward_le success) ha0
  have hbest : |p.alpha * p.gamma * table.largest| ≤ p.alpha * p.gamma * reach p := by
    rw [abs_mul, abs_of_nonneg (mul_nonneg ha0 hg0), ← hlargest]
    exact mul_le_mul_of_nonneg_left (h u hu d hd) (mul_nonneg ha0 hg0)
  calc |target p (p.reward success) (table.cell t 0) table.largest|
      = |(1 - 2 * p.alpha) * table.cell t 0 + p.alpha * p.reward success +
          p.alpha * p.gamma * table.largest| := by
        unfold target
        congr 1
        ring
    _ ≤ |(1 - 2 * p.alpha) * table.cell t 0| + |p.alpha * p.reward success| +
          |p.alpha * p.gamma * table.largest| := abs_add_three _ _ _
    _ ≤ (1 - 2 * p.alpha) * reach p + p.alpha * p.greatestReward +
          p.alpha * p.gamma * reach p := add_le_add (add_le_add hold hreward) hbest
    _ = reach p := reach_eq hg

theorem Bounded.enter (h : Bounded p table) (ha : Arith.isProbability p.alpha = true)
    (hhalf : p.alpha ≤ 1 / 2) (hg : Arith.isProbability p.gamma = true) {slot : Nat}
    (hslot : slot < table.slots) (hchannels : 0 < table.channels) (success : Bool) :
    Bounded p ((rewardAt p table slot success).enter table) := by
  intro t ht c hc
  rw [Reward.slots_enter] at ht
  rw [Reward.channels_enter] at hc
  by_cases heq : slot = t ∧ 0 = c
  · obtain ⟨rfl, rfl⟩ := heq
    have hnew := (rewardAt p table slot success).cell_enter_self table hslot hchannels
    exact (congrArg _ hnew).trans_le (h.abs_target_le ha hhalf hg hslot hchannels success)
  · have hold := (rewardAt p table slot success).cell_enter_of_ne table
      (show slot ≠ t ∨ 0 ≠ c by omega)
    exact (congrArg _ hold).trans_le (h t ht c hc)

variable {σ : Type} [Journal σ]

theorem Bounded.ends_applyEach (hjournal : ∀ (n : Note) (s : σ), Journal.obstacle? n s = none)
    (ha : Arith.isProbability p.alpha = true) (hhalf : p.alpha ≤ 1 / 2)
    (hg : Arith.isProbability p.gamma = true) {slots channels : Nat} (hchannels : 0 < channels)
    {calls : List (Nat × Bool)} (hcalls : ∀ call ∈ calls, call.1 < slots)
    (hs : table.slots = slots) (hc : table.channels = channels) (h : Bounded p table) (s : σ) :
    Ends (applyEach p calls) (table, s) fun _ u =>
      u.1.slots = slots ∧ u.1.channels = channels ∧ Bounded p u.1 := by
  induction calls generalizing table s with
  | nil => exact ⟨hs, hc, h⟩
  | cons call rest ih =>
    obtain ⟨slot, success⟩ := call
    have hslot : slot < table.slots := hs ▸ hcalls _ List.mem_cons_self
    have hpos : 0 < table.channels := hc ▸ hchannels
    unfold applyEach
    rw [ends_bind]
    refine (ends_apply (p := p) hjournal hslot hpos success s).mono ?_
    rintro _ ⟨table', t⟩ ⟨-, htable⟩
    change table' = _ at htable
    subst htable
    exact ih (fun call hmem => hcalls call (List.mem_cons_of_mem _ hmem))
      ((Reward.slots_enter ..).trans hs) ((Reward.channels_enter ..).trans hc)
      (h.enter ha hhalf hg hslot hpos success) t

/-- Whichever slots of a table of zeros are updated, and whatever has come of them: with a
learning rate of at most one half all values stay within the greatest reward divided by
`2 - gamma`. Every update, also one that is refused, leaves all cells but that of its slot as they
were. -/
theorem slot_values_bounded (p : Parameters ℚ)
    (hjournal : ∀ (n : Note) (s : σ), Journal.obstacle? n s = none)
    (ha : Arith.isProbability p.alpha = true) (hhalf : p.alpha ≤ 1 / 2)
    (hg : Arith.isProbability p.gamma = true) (slots channels : Nat) (hchannels : 0 < channels)
    (calls : List (Nat × Bool)) (hcalls : ∀ call ∈ calls, call.1 < slots) (s : σ) :
    (∃ table s', applyEach p calls (Grid.empty slots channels 0, s) = .ok () (table, s') ∧
      table.slots = slots ∧ table.channels = channels ∧
      ∀ t < slots, ∀ c < channels,
        |table.cell t c| ≤ max |p.successReward| |p.failureReward| / (2 - p.gamma)) ∧
    ∀ (table : ValueTable ℚ) (slot : Datum) (success : Bool) (s : σ),
      ∃ r table' s', attempt (apply p slot success) (table, s) = .ok r (table', s') ∧
        table'.slots = table.slots ∧ table'.channels = table.channels ∧
        ∀ t c, ¬(slot = .int (t : Nat) ∧ c = 0) → table'.cell t c = table.cell t c := by
  constructor
  · have hempty : Bounded p (Grid.empty slots channels 0) := by
      intro t _ c _
      obtain ⟨-, hg1⟩ := Arith.isProbability_iff.1 hg
      rw [Grid.cell_empty, abs_zero]
      exact div_nonneg ((abs_nonneg _).trans (le_max_left _ _)) (by linarith)
    obtain ⟨_, ⟨table, s'⟩, hrun, hslots, hchannels', hbounded⟩ := ends_iff.1 <|
      hempty.ends_applyEach hjournal ha hhalf hg hchannels hcalls rfl rfl s
    exact ⟨table, s', hrun, hslots, hchannels', fun t ht c hc =>
      hbounded t (hslots ▸ ht) c (hchannels' ▸ hc)⟩
  · intro table slot success s
    obtain ⟨r, ⟨table', s'⟩, hattempt, hframe⟩ :=
      settles_iff.1 (settles_apply p table slot success s)
    exact ⟨r, table', s', hattempt, hframe⟩

/-- Three updates of two out of three slots, with the largest learning rate. -/
theorem slot_values_bounded_three_updates :
    let p : Parameters ℚ :=
      { Parameters.level (1 / 2) 0 with gamma := 1 / 2, successReward := 3, failureReward := -1 }
    ∃ table s', applyEach p [(2, true), (1, false), (2, true)]
        (Grid.empty 3 1 0, Whims.start []) = .ok () (table, s') ∧
      |table.cell 1 0| ≤ 2 ∧ |table.cell 2 0| ≤ 2 := by
  intro p
  obtain ⟨⟨table, s', hrun, -, -, hvalue⟩, -⟩ :=
    slot_values_bounded p (fun _ (_ : Whims) => rfl) (by decide +kernel) (by decide +kernel)
      (by decide +kernel) 3 1 (by decide) [(2, true), (1, false), (2, true)] (by decide)
      (Whims.start [])
  refine ⟨table, s', hrun, (hvalue 1 (by decide) 0 (by decide)).trans ?_,
    (hvalue 2 (by decide) 0 (by decide)).trans ?_⟩
  · decide +kernel
  · decide +kernel

end TschLearning.SlotReward
