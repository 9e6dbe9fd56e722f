import TschLearning.Proofs.Action.Settles
import TschLearning.Proofs.Exact
import TschLearning.Proofs.Learning.Applied
import Mathlib.Algebra.Order.Group.Abs
import Mathlib.Tactic.Linarith

/-! Two tables that learn alike. If no value of the first is above that of the second by more than
some margin, then none is after a pass, and the values that were learned anew are even closer.
Without a margin this is an order that learning keeps; with the same margin either way it says
that learning never drives tables apart. -/

namespace TschLearning

/-- The tables are of one size, and no value of the first is above that of the second by more
than a margin. -/
def ValueTable.AtMost (margin : ℚ) (V W : ValueTable ℚ) : Prop :=
  Grid.Cellwise (fun x y => x ≤ y + margin) V W

theorem ValueTable.AtMost.largestIn_le {margin : ℚ} {V W : ValueTable ℚ} (h : V.AtMost margin W)
    (hc : 0 < V.channels) {slot : Nat} (hslot : slot < V.slots) :
    V.largestIn slot ≤ W.largestIn slot + margin := by
  obtain ⟨⟨c, hlt, hlargest⟩, -⟩ := isGreatest_largestIn hc slot
  obtain ⟨-, hupper⟩ := isGreatest_largestIn (t := W) (h.channels_eq ▸ hc) slot
  calc V.largestIn slot = V.cell slot c := hlargest.symm
    _ ≤ W.cell slot c + margin := h.cell slot hslot c hlt
    _ ≤ W.largestIn slot + margin :=
      add_le_add_left (hupper ⟨c, h.channels_eq ▸ hlt, rfl⟩) margin

/-- What a pass comes to. -/
def Pass.outcome {α : Type} (pass : Pass α) : Except Fault Unit :=
  match pass.fault with
  | none => .ok ()
  | some f => .error f

theorem Pass.outcome_eq_ok {α : Type} {pass : Pass α} :
    pass.outcome = .ok () ↔ pass.fault = none := by
  unfold Pass.outcome
  cases pass.fault <;> simp

theorem Parameters.reward_mono {p : Parameters ℚ} (h : p.failureReward ≤ p.successReward)
    {b b' : Bool} (hb : b ≤ b') : p.reward b ≤ p.reward b' := by
  cases b with
  | false =>
    cases b' with
    | false => exact le_rfl
    | true => exact h
  | true =>
    cases b' with
    | false => exact absurd hb (by decide)
    | true => exact le_rfl

namespace Lookahead

open TschLearning.Action

/-! ### A pass over any configuration -/

section Passes

variable {α : Type} [Arith α] {p : Parameters α} {O P : OutcomeTracker} {V W : ValueTable α}

omit [Arith α] in
/-- Only the sizes settle whether there is a place for an update, and what is said if not. -/
theorem place_congr (hs : O.slots = P.slots) (hc : O.channels = P.channels)
    (hs' : V.slots = W.slots) (hc' : V.channels = W.channels) (slot : Nat) (channel : Datum) :
    place O V slot channel = place P W slot channel := by
  have htracker : O.label = P.label := by unfold OutcomeTracker.label; rw [hs, hc]
  have htable : V.label = W.label := by unfold ValueTable.label; rw [hs', hc']
  simp only [place, OutcomeTracker.checkSlot, OutcomeTracker.checkChannel, ValueTable.checkSlot,
    ValueTable.checkChannel, htracker, htable, hs, hc, hs', hc']

theorem passFrom_cons_of_error {slot : Nat} {channel : Datum} {f : Fault}
    (h : place O V slot channel = .error f) (rest : List Datum) :
    passFrom p O V slot (channel :: rest) = { table := V, rewards := [], fault := some f } := by
  rw [passFrom, step_eq, h]
  rfl

theorem passFrom_cons_of_ok {slot c : Nat} {channel : Datum}
    (h : place O V slot channel = .ok c) (rest : List Datum) :
    let r := rewardAt p O V slot c
    let after := passFrom p O (r.enter V) (slot + 1) rest
    passFrom p O V slot (channel :: rest) = { after with rewards := r :: after.rewards } := by
  rw [passFrom, step_eq, h]
  rfl

/-- A pass keeps the size of the table, and the rows that it has left behind. -/
theorem passFrom_frame (slot : Nat) (configuration : List Datum) :
    (passFrom p O V slot configuration).table.slots = V.slots ∧
      (passFrom p O V slot configuration).table.channels = V.channels ∧
      ∀ t < slot, ∀ c, (passFrom p O V slot configuration).table.cell t c = V.cell t c := by
  induction configuration generalizing slot V with
  | nil => exact ⟨rfl, rfl, fun _ _ _ => rfl⟩
  | cons channel rest ih =>
    cases hplace : place O V slot channel with
    | error f =>
      rw [passFrom_cons_of_error hplace]
      exact ⟨rfl, rfl, fun _ _ _ => rfl⟩
    | ok c =>
      rw [passFrom_cons_of_ok hplace]
      obtain ⟨hslots, hchannels, hcell⟩ := ih (V := (rewardAt p O V slot c).enter V) (slot + 1)
      refine ⟨hslots.trans (Reward.slots_enter ..), hchannels.trans (Reward.channels_enter ..),
        fun t ht d => (hcell t (by omega) d).trans ?_⟩
      exact Reward.cell_enter_of_ne _ _ (.inl (show slot ≠ t by omega))

/-- What a pass enters stays until its end. -/
theorem cell_passFrom_cons {slot c : Nat} {channel : Datum}
    (h : place O V slot channel = .ok c) (rest : List Datum) :
    (passFrom p O V slot (channel :: rest)).table.cell slot c = (rewardAt p O V slot c).new := by
  obtain ⟨-, -, hslot, hchannel⟩ := place_eq_ok.1 h
  obtain ⟨-, -, hcell⟩ :=
    passFrom_frame (p := p) (O := O) (V := (rewardAt p O V slot c).enter V) (slot + 1) rest
  rw [passFrom_cons_of_ok h]
  exact (hcell slot (by omega) c).trans (Reward.cell_enter_self _ V hslot hchannel)

variable (p O V) in
theorem size_pass (configuration : List Datum) :
    (pass p O V configuration).table.slots = V.slots ∧
      (pass p O V configuration).table.channels = V.channels := by
  by_cases h : configuration.length = V.slots
  · rw [pass_of_length_eq h]
    exact ⟨(passFrom_frame 0 configuration).1, (passFrom_frame 0 configuration).2.1⟩
  · rw [pass_of_length_ne h]
    exact ⟨rfl, rfl⟩

end Passes

variable {p : Parameters ℚ} {margin : ℚ} {V W : ValueTable ℚ} {O P : OutcomeTracker}

section Margins

variable (hmargin : 0 ≤ margin) (ha : Arith.isProbability p.alpha = true)
  (hg : Arith.isProbability p.gamma = true)

include hmargin ha hg

/-- What is learned from values that differ by a margin differs by less, for the discount and the
share of the reward. -/
theorem target_le (h : V.AtMost margin W) {t c : Nat} (ht : t < V.slots) (hc : c < V.channels)
    {r r' : ℚ} (hr : r ≤ r') :
    target p r (V.cell t c) (following V t) ≤
      target p r' (W.cell t c) (following W t) + (1 - p.alpha + p.alpha * p.gamma) * margin := by
  obtain ⟨ha0, ha1⟩ := Arith.isProbability_iff.1 ha
  obtain ⟨hg0, hg1⟩ := Arith.isProbability_iff.1 hg
  have hold : (1 - p.alpha) * V.cell t c ≤ (1 - p.alpha) * (W.cell t c + margin) :=
    mul_le_mul_of_nonneg_left (h.cell t ht c hc) (sub_nonneg.2 ha1)
  have hnew : p.alpha * r ≤ p.alpha * r' := mul_le_mul_of_nonneg_left hr ha0
  rw [target_following, target_following, ← h.slots_eq]
  split
  · have hrest : 0 ≤ p.alpha * p.gamma * margin := mul_nonneg (mul_nonneg ha0 hg0) hmargin
    linarith
  · have hnext : p.alpha * p.gamma * V.largestIn (t + 1) ≤
        p.alpha * p.gamma * (W.largestIn (t + 1) + margin) :=
      mul_le_mul_of_nonneg_left (h.largestIn_le (Nat.zero_lt_of_lt hc) (by omega))
        (mul_nonneg ha0 hg0)
    linarith

theorem rate_mul_le : (1 - p.alpha + p.alpha * p.gamma) * margin ≤ margin := by
  obtain ⟨ha0, -⟩ := Arith.isProbability_iff.1 ha
  obtain ⟨-, hg1⟩ := Arith.isProbability_iff.1 hg
  have hshare : p.alpha * p.gamma ≤ p.alpha := mul_le_of_le_one_right ha0 hg1
  exact mul_le_of_le_one_left hmargin (by linarith)

/-- Passes over two tables with the same configuration, the second one with the better outcomes.
They stop alike; no value of the first table comes to be above that of the second by more than
before, and those that both have learned anew are closer than before. -/
theorem passFrom_le (h : V.AtMost margin W)
    (hO : Grid.Cellwise (fun b b' => p.reward b ≤ p.reward b') O P) (slot : Nat)
    (configuration : List Datum) :
    let first := passFrom p O V slot configuration
    let second := passFrom p P W slot configuration
    first.fault = second.fault ∧ first.table.AtMost margin second.table ∧
      (first.fault = none → ∀ t < V.slots, ∀ c < V.channels,
        slot ≤ t → channelAt? configuration (t - slot) = some (c : Int) →
        first.table.cell t c ≤
          second.table.cell t c + (1 - p.alpha + p.alpha * p.gamma) * margin) := by
  induction configuration generalizing slot V W with
  | nil => exact ⟨rfl, h, fun _ t _ c _ _ hcfg => by simp [channelAt?] at hcfg⟩
  | cons channel rest ih =>
    have hcongr := place_congr hO.slots_eq hO.channels_eq h.slots_eq h.channels_eq slot channel
    cases hplace : place O V slot channel with
    | error f =>
      rw [passFrom_cons_of_error hplace, passFrom_cons_of_error (hcongr ▸ hplace)]
      exact ⟨rfl, h, fun hnone => by cases hnone⟩
    | ok d =>
      -- later updates leave this row alone, so both tables still have its new value in the end
      have hfirst := cell_passFrom_cons (p := p) hplace rest
      have hsecond := cell_passFrom_cons (p := p) (hcongr ▸ hplace) rest
      rw [passFrom_cons_of_ok hplace] at hfirst ⊢
      rw [passFrom_cons_of_ok (hcongr ▸ hplace)] at hsecond ⊢
      obtain ⟨rfl, ⟨hs, hc⟩, hs', hc'⟩ := place_eq_ok.1 hplace
      have hnew := target_le hmargin ha hg h hs' hc' (hO.cell slot hs d hc)
      have henter : ((rewardAt p O V slot d).enter V).AtMost margin
          ((rewardAt p P W slot d).enter W) :=
        h.set slot d (hnew.trans (add_le_add_right (rate_mul_le hmargin ha hg) _))
      obtain ⟨hfault, htable, hcells⟩ := ih henter (slot + 1)
      refine ⟨hfault, htable, fun hnone t ht c hlt hst hcfg => ?_⟩
      rcases Nat.eq_or_lt_of_le hst with rfl | hst
      · have hcd : d = c := by simpa [channelAt?, Datum.integer?] using hcfg
        subst hcd
        exact (hfirst.trans_le hnew).trans_eq (congrArg (· + _) hsecond.symm)
      · have hsub : t - slot = (t - (slot + 1)) + 1 := by omega
        rw [hsub] at hcfg
        exact hcells hnone t (by simpa using ht) c (by simpa using hlt) hst hcfg

theorem pass_le (h : V.AtMost margin W)
    (hO : Grid.Cellwise (fun b b' => p.reward b ≤ p.reward b') O P)
    (configuration : List Datum) :
    let first := pass p O V configuration
    let second := pass p P W configuration
    first.outcome = second.outcome ∧ first.table.AtMost margin second.table ∧
      (first.outcome = .ok () → ∀ t < V.slots, ∀ c < V.channels,
        channelAt? configuration t = some (c : Int) →
        first.table.cell t c ≤
          second.table.cell t c + (1 - p.alpha + p.alpha * p.gamma) * margin) := by
  by_cases hlen : configuration.length = V.slots
  · obtain ⟨hfault, htable, hcells⟩ := passFrom_le hmargin ha hg h hO 0 configuration
    rw [pass_of_length_eq hlen, pass_of_length_eq (hlen.trans h.slots_eq)]
    refine ⟨by unfold Pass.outcome; rw [hfault], htable, fun hnone t ht c hc hcfg => ?_⟩
    exact hcells (Pass.outcome_eq_ok.1 hnone) t ht c hc (Nat.zero_le t) hcfg
  · rw [pass_of_length_ne hlen, pass_of_length_ne (h.slots_eq ▸ hlen)]
    exact ⟨rfl, h, fun hnone => by cases hnone⟩

end Margins

/-! ### Distances -/

/-- The largest absolute difference between two values at one place. -/
def distance (V W : ValueTable ℚ) : ℚ :=
  Arith.largest 0 <| (List.range V.slots).flatMap fun t =>
    (List.range V.channels).map fun c => |V.cell t c - W.cell t c|

theorem distance_nonneg (V W : ValueTable ℚ) : 0 ≤ distance V W :=
  (Arith.isGreatest_largest ..).2 List.mem_cons_self

theorem abs_sub_le_distance {t c : Nat} (ht : t < V.slots) (hc : c < V.channels) :
    |V.cell t c - W.cell t c| ≤ distance V W := by
  refine (Arith.isGreatest_largest ..).2 (List.mem_cons_of_mem _ ?_)
  exact List.mem_flatMap.2
    ⟨t, List.mem_range.2 ht, List.mem_map.2 ⟨c, List.mem_range.2 hc, rfl⟩⟩

theorem distance_le {b : ℚ} (hb : 0 ≤ b)
    (h : ∀ t < V.slots, ∀ c < V.channels, |V.cell t c - W.cell t c| ≤ b) : distance V W ≤ b := by
  obtain ⟨hmem, -⟩ := Arith.isGreatest_largest 0 <| (List.range V.slots).flatMap fun t =>
    (List.range V.channels).map fun c => |V.cell t c - W.cell t c|
  rcases List.mem_cons.1 hmem with hzero | hmem
  · exact hzero.trans_le hb
  · obtain ⟨t, ht, hmem⟩ := List.mem_flatMap.1 hmem
    obtain ⟨c, hc, heq⟩ := List.mem_map.1 hmem
    exact heq.ge.trans (h t (List.mem_range.1 ht) c (List.mem_range.1 hc))

theorem atMost_distance (hslots : V.slots = W.slots) (hchannels : V.channels = W.channels) :
    V.AtMost (distance V W) W ∧ W.AtMost (distance V W) V := by
  have hclose : ∀ t < V.slots, ∀ c < V.channels,
      V.cell t c - W.cell t c ≤ distance V W ∧ W.cell t c - V.cell t c ≤ distance V W :=
    fun t ht c hc => abs_sub_le_iff.1 (abs_sub_le_distance ht hc)
  refine ⟨⟨hslots, hchannels, fun t ht c hc => ?_⟩,
    ⟨hslots.symm, hchannels.symm, fun t ht c hc => ?_⟩⟩
  · exact sub_le_iff_le_add'.1 (hclose t ht c hc).1
  · exact sub_le_iff_le_add'.1 (hclose t (hslots ▸ ht) c (hchannels ▸ hc)).2

/-- Passes with the same outcomes take no two tables further apart. -/
theorem distance_pass_le (ha : Arith.isProbability p.alpha = true)
    (hg : Arith.isProbability p.gamma = true) (hslots : V.slots = W.slots)
    (hchannels : V.channels = W.channels) (O : OutcomeTracker) (configuration : List Datum) :
    let first := pass p O V configuration
    let second := pass p O W configuration
    first.outcome = second.outcome ∧ distance first.table second.table ≤ distance V W ∧
      (first.outcome = .ok () → ∀ t < V.slots, ∀ c < V.channels,
        channelAt? configuration t = some (c : Int) →
        |first.table.cell t c - second.table.cell t c| ≤
          (1 - p.alpha + p.alpha * p.gamma) * distance V W) := by
  have hsame : Grid.Cellwise (fun b b' => p.reward b ≤ p.reward b') O O :=
    ⟨rfl, rfl, fun _ _ _ _ => le_rfl⟩
  obtain ⟨hVW, hWV⟩ := atMost_distance hslots hchannels
  obtain ⟨houtcome, hupper, hupperAt⟩ :=
    pass_le (distance_nonneg V W) ha hg hVW hsame configuration
  obtain ⟨-, hlower, hlowerAt⟩ := pass_le (distance_nonneg V W) ha hg hWV hsame configuration
  refine ⟨houtcome, distance_le (distance_nonneg V W) fun t ht c hc => ?_,
    fun hok t ht c hc hcfg => ?_⟩
  · exact abs_sub_le_iff.2 ⟨sub_le_iff_le_add'.2 (hupper.cell t ht c hc),
      sub_le_iff_le_add'.2
        (hlower.cell t (hupper.slots_eq ▸ ht) c (hupper.channels_eq ▸ hc))⟩
  · exact abs_sub_le_iff.2 ⟨sub_le_iff_le_add'.2 (hupperAt hok t ht c hc hcfg),
      sub_le_iff_le_add'.2
        (hlowerAt (houtcome ▸ hok) t (hslots ▸ ht) c (hchannels ▸ hc) hcfg)⟩

/-! ### The rule applied -/

section Applied

variable {σ : Type} [Journal σ]

/-- Applying the rule leaves the table of the pass, and comes to what the pass comes to. -/
theorem attempt_apply {α : Type} [Arith α]
    (hjournal : ∀ (n : Note) (s : σ), Journal.obstacle? n s = none) (p : Parameters α)
    (outcomes : OutcomeTracker) (configuration : List Datum) (table : ValueTable α) (s : σ) :
    ∃ s', attempt (apply p outcomes configuration) (table, s) =
      .ok (pass p outcomes table configuration).outcome
        ((pass p outcomes table configuration).table, s') := by
  have hsettles : Settles (apply p outcomes configuration) (table, s) fun r u =>
      r = (pass p outcomes table configuration).outcome ∧
        u.1 = (pass p outcomes table configuration).table := by
    have htracker : Journal.Discreet (σ := σ) fun _ => outcomes := ⟨hjournal, fun _ _ => rfl⟩
    unfold apply
    rw [settles_part_bind]
    refine (ends_enterRewards htracker table _ _ s).settles_bind ?_
    rintro _ ⟨_, t⟩ ⟨rfl, -⟩
    have htable := table_pass p outcomes table configuration
    unfold Pass.outcome
    cases (pass p outcomes table configuration).fault with
    | none => exact ⟨rfl, htable.symm⟩
    | some f => exact ⟨rfl, htable.symm⟩
  obtain ⟨r, ⟨table', s'⟩, hattempt, rfl, htable⟩ := settles_iff.1 hsettles
  exact ⟨s', hattempt.trans (by rw [show table' = _ from htable])⟩

/-- Learning keeps the order of tables, and the better outcomes lead to the larger values, if a
success is worth at least as much as a failure. With the same outcomes, learning takes no two
tables further apart than they were: no difference is larger than the largest one before, and
those between values learned anew are at most `1 - alpha + alpha * gamma` times that. All this
holds of configurations that are refused midway as well; both applications are then refused alike.
A configuration of the table goes through. -/
theorem apply_monotone_nonexpansive (p : Parameters ℚ)
    (hjournal : ∀ (n : Note) (s : σ), Journal.obstacle? n s = none)
    (ha : Arith.isProbability p.alpha = true) (hg : Arith.isProbability p.gamma = true)
    (configuration : List Datum) (V W : ValueTable ℚ) (O P : OutcomeTracker) (s t : σ) :
    (p.failureReward ≤ p.successReward → Grid.Cellwise (· ≤ ·) V W → Grid.Cellwise (· ≤ ·) O P →
      ∃ r V' W' s' t', attempt (apply p O configuration) (V, s) = .ok r (V', s') ∧
        attempt (apply p P configuration) (W, t) = .ok r (W', t') ∧
        V'.slots = V.slots ∧ V'.channels = V.channels ∧ Grid.Cellwise (· ≤ ·) V' W') ∧
    (V.slots = W.slots → V.channels = W.channels →
      ∃ r V' W' s' t', attempt (apply p O configuration) (V, s) = .ok r (V', s') ∧
        attempt (apply p O configuration) (W, t) = .ok r (W', t') ∧
        V'.slots = V.slots ∧ V'.channels = V.channels ∧ distance V' W' ≤ distance V W ∧
        (r = .ok () → ∀ i < V.slots, ∀ c < V.channels,
          channelAt? configuration i = some (c : Int) → |V'.cell i c - W'.cell i c| ≤
            (1 - p.alpha + p.alpha * p.gamma) * distance V W)) ∧
    (O.slots = V.slots → O.channels = V.channels →
      IsConfiguration V.slots V.channels configuration →
      ∃ V' s', apply p O configuration (V, s) = .ok () (V', s')) := by
  have hV := attempt_apply hjournal p O configuration V s
  refine ⟨fun hreward hVW hOP => ?_, fun hslots hchannels => ?_, fun hslots hchannels hcfg => ?_⟩
  · have hbetter : Grid.Cellwise (fun b b' => p.reward b ≤ p.reward b') O P :=
      hOP.mono fun _ _ hle => p.reward_mono hreward hle
    have hAtMost : V.AtMost 0 W := hVW.mono fun _ _ hle => by rwa [add_zero]
    obtain ⟨houtcome, htable, -⟩ := pass_le le_rfl ha hg hAtMost hbetter configuration
    obtain ⟨s', hV⟩ := hV
    obtain ⟨t', hW⟩ := attempt_apply hjournal p P configuration W t
    obtain ⟨hslots, hchannels⟩ := size_pass p O V configuration
    exact ⟨_, _, _, s', t', hV, houtcome ▸ hW, hslots, hchannels,
      htable.mono fun _ _ hle => by rwa [add_zero] at hle⟩
  · obtain ⟨houtcome, hfar, hnear⟩ := distance_pass_le ha hg hslots hchannels O configuration
    obtain ⟨s', hV⟩ := hV
    obtain ⟨t', hW⟩ := attempt_apply hjournal p O configuration W t
    obtain ⟨hslots', hchannels'⟩ := size_pass p O V configuration
    exact ⟨_, _, _, s', t', hV, houtcome ▸ hW, hslots', hchannels', hfar, hnear⟩
  · have htracker : Journal.Discreet (σ := σ) fun _ => O := ⟨hjournal, fun _ _ => rfl⟩
    obtain ⟨_, ⟨V', s'⟩, hrun, -⟩ :=
      ends_iff.1 (ends_apply (p := p) (s := s) htracker hslots hchannels hcfg)
    exact ⟨V', s', hrun⟩

/-- Two tables that differ by four in one value of the second slot, which the first slot looks
ahead to. -/
theorem apply_monotone_nonexpansive_two_slots :
    let p : Parameters ℚ :=
      { Parameters.level (1 / 2) 0 with
        gamma := 1 / 2, successReward := 3, failureReward := -1 }
    let V : ValueTable ℚ := Grid.empty 2 2 0
    let W : ValueTable ℚ := V.set 1 1 4
    let O : OutcomeTracker := Grid.empty 2 2 false
    let P : OutcomeTracker := O.set 0 1 true
    let configuration := Datum.ofInts [1, 0]
    (∃ r V' W' s' t', attempt (apply p O configuration) (V, Whims.start []) = .ok r (V', s') ∧
      attempt (apply p P configuration) (W, Whims.start []) = .ok r (W', t') ∧
      V'.cell 0 1 ≤ W'.cell 0 1) ∧
    ∃ V' W' s' t', attempt (apply p O configuration) (V, Whims.start []) =
        .ok (.ok ()) (V', s') ∧
      attempt (apply p O configuration) (W, Whims.start []) = .ok (.ok ()) (W', t') ∧
      |V'.cell 1 1 - W'.cell 1 1| ≤ 4 ∧ |V'.cell 0 1 - W'.cell 0 1| ≤ 3 := by
  intro p V W O P configuration
  have hdistance : distance V W = 4 := by decide +kernel
  obtain ⟨hmono, hclose, hruns⟩ := apply_monotone_nonexpansive p
    (fun _ (_ : Whims) => rfl) (by decide +kernel) (by decide +kernel) configuration V W O P
    (Whims.start []) (Whims.start [])
  constructor
  · obtain ⟨r, V', W', s', t', hV, hW, hslots, hchannels, hle⟩ := hmono (by decide +kernel)
      ⟨rfl, rfl, by decide +kernel⟩ ⟨rfl, rfl, by decide +kernel⟩
    exact ⟨r, V', W', s', t', hV, hW,
      hle.cell 0 (hslots ▸ by decide) 1 (hchannels ▸ by decide)⟩
  · obtain ⟨V'', s'', hrun⟩ := hruns rfl rfl ⟨[1, 0], rfl, rfl, by decide⟩
    obtain ⟨r, V', W', s', t', hV, hW, hslots, hchannels, hfar, hnear⟩ := hclose rfl rfl
    have hok : r = .ok () := by
      simp only [attempt, hrun] at hV
      cases hV
      rfl
    subst hok
    refine ⟨V', W', s', t', hV, hW, ?_, ?_⟩
    · exact hdistance ▸ (abs_sub_le_distance (hslots ▸ by decide)
        (hchannels ▸ by decide)).trans hfar
    · refine (hnear rfl 0 (by decide) 1 (by decide) rfl).trans ?_
      rw [hdistance]
      decide +kernel

end Applied
end Lookahead
end TschLearning
