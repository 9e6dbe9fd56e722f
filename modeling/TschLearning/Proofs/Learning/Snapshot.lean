import TschLearning.Learning
import TschLearning.Proofs.Checks
import TschLearning.Proofs.Grid

/-! The lookahead rule as a rule on whole tables. A pass over a slotframe changes one row after
the other and looks only at rows that it has not changed yet, so every new value is made of
values from before the pass. -/

namespace TschLearning

/-- The channel of a slot in a configuration of integers. -/
def channelAt? (configuration : List Datum) (slot : Nat) : Option Int :=
  configuration[slot]?.bind Datum.integer?

@[simp] theorem channelAt?_ofInts (channels : List Int) (slot : Nat) :
    channelAt? (Datum.ofInts channels) slot = channels[slot]? := by
  unfold channelAt? Datum.ofInts
  rw [List.getElem?_map]
  cases channels[slot]? <;> rfl

/-- A configuration with a channel of a table for each of its slots. -/
def IsConfiguration (slots channels : Nat) (configuration : List Datum) : Prop :=
  ∃ cs : List Int, configuration = Datum.ofInts cs ∧ cs.length = slots ∧
    ∀ c ∈ cs, 0 ≤ c ∧ c < channels

theorem IsConfiguration.length_eq {slots channels : Nat} {configuration : List Datum}
    (h : IsConfiguration slots channels configuration) : configuration.length = slots := by
  obtain ⟨cs, rfl, rfl, -⟩ := h
  exact List.length_map _

/-! ### Updates entered -/

namespace Reward

variable {α : Type} (r : Reward α) (table : ValueTable α)

@[simp] theorem slots_enter : (r.enter table).slots = table.slots := Grid.slots_set ..

@[simp] theorem channels_enter : (r.enter table).channels = table.channels :=
  Grid.channels_set ..

theorem cell_enter_self (hslot : r.slot < table.slots) (hchannel : r.channel < table.channels) :
    (r.enter table).cell r.slot r.channel = r.new := Grid.cell_set_self hslot hchannel _

theorem cell_enter_of_ne {t c : Nat} (h : r.slot ≠ t ∨ r.channel ≠ c) :
    (r.enter table).cell t c = table.cell t c := Grid.cell_set_of_ne h _

end Reward

namespace Lookahead

variable {α : Type} [Arith α]

/-- The largest value of the slot that follows `slot`, none for the last one. -/
def following (table : ValueTable α) (slot : Nat) : Option α :=
  if slot + 1 = table.slots then none else some (table.largestIn (slot + 1))

/-- The table after a pass: the configured channel of every slot has a new value, made of the
values before the pass and the reward for a success or a failure. -/
def snapshot (p : Parameters α) (won : Nat → Nat → Bool) (configuration : List Datum)
    (table : ValueTable α) : ValueTable α :=
  table.mapCells fun t c old =>
    if channelAt? configuration t = some (c : Int) then
      target p (p.reward (won t c)) old (following table t)
    else old

/-- The rest of a pass, from a slot on. -/
def snapshotFrom (p : Parameters α) (won : Nat → Nat → Bool) (slot : Nat)
    (configuration : List Datum) (table : ValueTable α) : ValueTable α :=
  table.mapCells fun t c old =>
    if slot ≤ t ∧ channelAt? configuration (t - slot) = some (c : Int) then
      target p (p.reward (won t c)) old (following table t)
    else old

@[simp] theorem slots_snapshot (p : Parameters α) (won : Nat → Nat → Bool)
    (configuration : List Datum) (table : ValueTable α) :
    (snapshot p won configuration table).slots = table.slots := rfl

@[simp] theorem channels_snapshot (p : Parameters α) (won : Nat → Nat → Bool)
    (configuration : List Datum) (table : ValueTable α) :
    (snapshot p won configuration table).channels = table.channels := rfl

/-- The rule written out. -/
theorem target_following (p : Parameters α) (table : ValueTable α) (r old : α) (t : Nat) :
    target p r old (following table t) =
      if t + 1 = table.slots then (1 - p.alpha) * old + p.alpha * r
      else (1 - p.alpha) * old + p.alpha * (r + p.gamma * table.largestIn (t + 1)) := by
  unfold following
  split <;> rfl

/-- A configured cell after a pass, with the rule written out. -/
theorem cell_snapshot (p : Parameters α) (won : Nat → Nat → Bool) (configuration : List Datum)
    {table : ValueTable α} {t c : Nat} (ht : t < table.slots) (hc : c < table.channels) :
    (snapshot p won configuration table).cell t c =
      if channelAt? configuration t = some (c : Int) then
        if t + 1 = table.slots then
          (1 - p.alpha) * table.cell t c + p.alpha * p.reward (won t c)
        else
          (1 - p.alpha) * table.cell t c +
            p.alpha * (p.reward (won t c) + p.gamma * table.largestIn (t + 1))
      else table.cell t c := by
  rw [← target_following]
  exact Grid.cell_mapCells ht hc

theorem cell_snapshotFrom (p : Parameters α) (won : Nat → Nat → Bool) (slot : Nat)
    (configuration : List Datum) {table : ValueTable α} {t c : Nat} (ht : t < table.slots)
    (hc : c < table.channels) :
    (snapshotFrom p won slot configuration table).cell t c =
      if slot ≤ t ∧ channelAt? configuration (t - slot) = some (c : Int) then
        target p (p.reward (won t c)) (table.cell t c) (following table t)
      else table.cell t c :=
  Grid.cell_mapCells ht hc

theorem snapshotFrom_zero (p : Parameters α) (won : Nat → Nat → Bool)
    (configuration : List Datum) (table : ValueTable α) :
    snapshotFrom p won 0 configuration table = snapshot p won configuration table := by
  simp only [snapshotFrom, snapshot, Nat.zero_le, true_and, Nat.sub_zero]

/-- Only the configured cells of the successes matter. -/
theorem snapshot_congr {p : Parameters α} {won won' : Nat → Nat → Bool}
    {configuration : List Datum} {table : ValueTable α}
    (h : ∀ t < table.slots, ∀ c < table.channels,
      channelAt? configuration t = some (c : Int) → won t c = won' t c) :
    snapshot p won configuration table = snapshot p won' configuration table := by
  refine Grid.ext_cell rfl rfl rfl fun t ht c hc => ?_
  rw [slots_snapshot] at ht
  rw [channels_snapshot] at hc
  rw [cell_snapshot p won configuration ht hc, cell_snapshot p won' configuration ht hc]
  split
  · rename_i hcfg
    rw [h t ht c hc hcfg]
  · rfl

theorem following_set_of_lt {table : ValueTable α} {slot channel t : Nat} (v : α) (h : slot ≤ t) :
    following (table.set slot channel v) t = following table t := by
  have hrow : (table.set slot channel v).row (t + 1) = table.row (t + 1) :=
    Grid.row_congr (Grid.channels_set ..) fun c _ => Grid.cell_set_of_ne (.inl (by omega)) v
  unfold following ValueTable.largestIn
  rw [Grid.slots_set, hrow, Grid.blank_set]

variable {p : Parameters α} {outcomes : OutcomeTracker} {table : ValueTable α}

/-! ### One update -/

/-- The channel of an update, if it is one of the slot's in the outcomes and in the table. -/
def place (outcomes : OutcomeTracker) (table : ValueTable α) (slot : Nat) (channel : Datum) :
    Except Fault Nat := do
  let _ ← outcomes.checkSlot (.int slot)
  let _ ← outcomes.checkChannel channel
  let _ ← table.checkSlot (.int slot)
  table.checkChannel channel

omit [Arith α] in
theorem place_eq_ok {slot c : Nat} {channel : Datum} :
    place outcomes table slot channel = .ok c ↔
      channel = .int c ∧ (slot < outcomes.slots ∧ c < outcomes.channels) ∧
        slot < table.slots ∧ c < table.channels := by
  constructor
  · intro h
    obtain ⟨_, hs, h⟩ := bind_eq_ok.1 h
    obtain ⟨d, hc, h⟩ := bind_eq_ok.1 h
    obtain ⟨_, hs', h⟩ := bind_eq_ok.1 h
    obtain ⟨rfl, hc'⟩ := checkIndex_eq_ok h
    obtain ⟨hslot, hs⟩ := checkIndex_eq_ok hs
    obtain ⟨hd, hc⟩ := checkIndex_eq_ok hc
    obtain ⟨hslot', hs'⟩ := checkIndex_eq_ok hs'
    rw [← Datum.int.inj hslot] at hs
    rw [← Datum.int.inj hslot'] at hs'
    rw [← Datum.int.inj hd] at hc
    exact ⟨rfl, by omega, by omega⟩
  · rintro ⟨rfl, ⟨hs, hc⟩, hs', hc'⟩
    simp only [place, OutcomeTracker.checkSlot, OutcomeTracker.checkChannel,
      ValueTable.checkSlot, ValueTable.checkChannel, bind, Except.bind,
      checkIndex_int_of_lt _ _ (Int.natCast_nonneg _) (Int.ofNat_lt.2 hs),
      checkIndex_int_of_lt _ _ (Int.natCast_nonneg _) (Int.ofNat_lt.2 hc),
      checkIndex_int_of_lt _ _ (Int.natCast_nonneg _) (Int.ofNat_lt.2 hs'),
      checkIndex_int_of_lt _ _ (Int.natCast_nonneg _) (Int.ofNat_lt.2 hc'), Int.toNat_natCast]

def rewardAt (p : Parameters α) (outcomes : OutcomeTracker) (table : ValueTable α)
    (slot channel : Nat) : Reward α where
  reward := p.reward (outcomes.cell slot channel)
  slot
  channel
  old := table.cell slot channel
  new := target p (p.reward (outcomes.cell slot channel)) (table.cell slot channel)
    (following table slot)

theorem bootstrap_eq_ok {slot : Nat} (hslot : slot < table.slots) :
    bootstrap table slot = .ok (following table slot) := by
  unfold bootstrap following
  split
  · rfl
  · have hnext : ((slot : Int) + 1).toNat = slot + 1 := by omega
    simp only [ValueTable.maxOf, ValueTable.checkSlot, bind, Except.bind,
      checkIndex_int_of_lt _ _ (show 0 ≤ (slot : Int) + 1 by omega)
        (show (slot : Int) + 1 < table.slots by omega), hnext]
    rfl

/-- An update is made if there is a place for it. -/
theorem step_eq (slot : Nat) (channel : Datum) :
    step p outcomes table slot channel =
      rewardAt p outcomes table slot <$> place outcomes table slot channel := by
  unfold step place OutcomeTracker.succeeded ValueTable.value
  cases hs : outcomes.checkSlot (.int slot) with
  | error f => rfl
  | ok s =>
    cases hc : outcomes.checkChannel channel with
    | error f => rfl
    | ok c =>
      cases hs' : table.checkSlot (.int slot) with
      | error f => rfl
      | ok s' =>
        cases hc' : table.checkChannel channel with
        | error f => rfl
        | ok c' =>
          obtain ⟨hslot, -⟩ := checkIndex_eq_ok hs
          obtain ⟨hslot', hlt⟩ := checkIndex_eq_ok hs'
          obtain ⟨rfl, -⟩ := checkIndex_eq_ok hc
          obtain ⟨hchannel, -⟩ := checkIndex_eq_ok hc'
          obtain rfl := Int.ofNat_inj.1 (Datum.int.inj hslot)
          obtain rfl := Int.ofNat_inj.1 (Datum.int.inj hslot')
          obtain rfl := Int.ofNat_inj.1 (Datum.int.inj hchannel)
          simp only [bind, Except.bind, pure, Except.pure,
            bootstrap_eq_ok (Int.ofNat_lt.1 hlt)]
          rfl

theorem step_eq_ok (hs : outcomes.slots = table.slots) (hc : outcomes.channels = table.channels)
    {slot : Nat} (hslot : slot < table.slots) {c : Int} (h0 : 0 ≤ c) (hlt : c < table.channels) :
    step p outcomes table slot (.int c) = .ok (rewardAt p outcomes table slot c.toNat) := by
  have hplace : place outcomes table slot (.int c) = .ok c.toNat :=
    place_eq_ok.2 ⟨by rw [Int.toNat_of_nonneg h0], by omega, by omega⟩
  rw [step_eq, hplace]
  rfl

theorem snapshotFrom_cons {won : Nat → Nat → Bool} {slot : Nat} (hslot : slot < table.slots)
    {c : Int} (h0 : 0 ≤ c) (hlt : c < table.channels) (rest : List Int) :
    snapshotFrom p won (slot + 1) (Datum.ofInts rest)
        (table.set slot c.toNat (target p (p.reward (won slot c.toNat)) (table.cell slot c.toNat)
          (following table slot))) =
      snapshotFrom p won slot (Datum.ofInts (c :: rest)) table := by
  refine Grid.ext_cell (by simp [snapshotFrom]) (by simp [snapshotFrom])
    (by simp [snapshotFrom]) fun t ht d hd => ?_
  have ht' : t < table.slots := by simpa [snapshotFrom] using ht
  have hd' : d < table.channels := by simpa [snapshotFrom] using hd
  rw [cell_snapshotFrom p won (slot + 1) _ (by simpa using ht') (by simpa using hd'),
    cell_snapshotFrom p won slot _ ht' hd']
  simp only [channelAt?_ofInts]
  rcases Nat.lt_trichotomy t slot with hts | rfl | hts
  · rw [if_neg (by omega), if_neg (by omega), Grid.cell_set_of_ne (.inl (by omega))]
  · rw [if_neg (by omega), Nat.sub_self]
    by_cases hcd : c = (d : Int)
    · subst hcd
      rw [if_pos ⟨Nat.le_refl t, rfl⟩, Int.toNat_natCast, Grid.cell_set_self ht' hd']
    · rw [if_neg (fun h => hcd (Option.some.inj h.2)), Grid.cell_set_of_ne (.inr (by omega))]
  · have hsub : t - slot = (t - (slot + 1)) + 1 := by omega
    rw [following_set_of_lt _ (by omega), Grid.cell_set_of_ne (.inl (by omega)), hsub,
      List.getElem?_cons_succ]
    simp only [show slot + 1 ≤ t from hts, show slot ≤ t by omega]

/-- Looking ahead row by row comes to the same as looking at the table before the pass. -/
theorem passFrom_eq (hs : outcomes.slots = table.slots) (hc : outcomes.channels = table.channels)
    {slot : Nat} {cs : List Int} (hlen : slot + cs.length = table.slots)
    (hrange : ∀ c ∈ cs, 0 ≤ c ∧ c < table.channels) :
    (passFrom p outcomes table slot (Datum.ofInts cs)).fault = none ∧
      (passFrom p outcomes table slot (Datum.ofInts cs)).table =
        snapshotFrom p outcomes.cell slot (Datum.ofInts cs) table := by
  induction cs generalizing slot table with
  | nil =>
    refine ⟨rfl, Grid.ext_cell rfl rfl rfl fun t ht d hd => ?_⟩
    show table.cell t d = _
    rw [cell_snapshotFrom p outcomes.cell slot _ (show t < table.slots from ht)
      (show d < table.channels from hd), if_neg]
    simp
  | cons c rest ih =>
    obtain ⟨h0, hlt⟩ := hrange c List.mem_cons_self
    have hslot : slot < table.slots := by
      rw [List.length_cons] at hlen
      omega
    show (passFrom p outcomes table slot (.int c :: Datum.ofInts rest)).fault = none ∧
      (passFrom p outcomes table slot (.int c :: Datum.ofInts rest)).table = _
    rw [passFrom, step_eq_ok hs hc hslot h0 hlt]
    refine (ih (hs.trans (Reward.slots_enter ..).symm)
      (hc.trans (Reward.channels_enter ..).symm) ?_ fun d hd => ?_).imp id fun h => h.trans ?_
    · rw [List.length_cons] at hlen
      rw [Reward.slots_enter]
      omega
    · rw [Reward.channels_enter]
      exact hrange d (List.mem_cons_of_mem _ hd)
    · exact snapshotFrom_cons hslot h0 hlt rest

/-- The table of a pass is what its updates make of the table before. -/
theorem table_passFrom (slot : Nat) (configuration : List Datum) :
    (passFrom p outcomes table slot configuration).table =
      (passFrom p outcomes table slot configuration).rewards.foldl (fun t r => r.enter t) table := by
  induction configuration generalizing slot table with
  | nil => rfl
  | cons d rest ih =>
    unfold passFrom
    split
    · rfl
    · exact ih (slot + 1)

theorem pass_of_length_ne {configuration : List Datum}
    (h : configuration.length ≠ table.slots) :
    pass p outcomes table configuration =
      { table, rewards := [], fault := some (.violated "") } :=
  if_neg h

theorem pass_of_length_eq {configuration : List Datum}
    (h : configuration.length = table.slots) :
    pass p outcomes table configuration = passFrom p outcomes table 0 configuration :=
  if_pos h

variable (p outcomes table) in
theorem table_pass (configuration : List Datum) :
    (pass p outcomes table configuration).table =
      (pass p outcomes table configuration).rewards.foldl (fun t r => r.enter t) table := by
  by_cases h : configuration.length = table.slots
  · rw [pass_of_length_eq h]
    exact table_passFrom 0 configuration
  · rw [pass_of_length_ne h]
    rfl

/-- A pass over a configuration of the table goes through, and yields the snapshot rule. -/
theorem pass_eq (hs : outcomes.slots = table.slots) (hc : outcomes.channels = table.channels)
    {configuration : List Datum} (hcfg : IsConfiguration table.slots table.channels configuration) :
    (pass p outcomes table configuration).fault = none ∧
      (pass p outcomes table configuration).rewards.foldl (fun t r => r.enter t) table =
        snapshot p outcomes.cell configuration table := by
  have hlen := hcfg.length_eq
  obtain ⟨cs, rfl, hcs, hrange⟩ := hcfg
  have hstart : 0 + cs.length = table.slots := by omega
  obtain ⟨hfault, htable⟩ := passFrom_eq (p := p) hs hc hstart hrange
  rw [← table_pass, pass_of_length_eq hlen]
  exact ⟨hfault, htable.trans (snapshotFrom_zero ..)⟩

end Lookahead
end TschLearning
