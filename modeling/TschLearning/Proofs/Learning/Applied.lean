import TschLearning.Proofs.Deployer.Wilful
import TschLearning.Proofs.Learning.Snapshot
import TschLearning.Proofs.Scheduler.Fresh

/-! The lookahead rule applied to a table in place. Slots come in ascending order and each looks
only at the one behind it, which has not been written yet. So the table before a pass settles the
one after it: the configured cells have the value of the rule, all others are as they were. -/

namespace TschLearning.Lookahead

open TschLearning.Action

variable {σ α : Type} [Arith α] [Journal σ] {tracker : σ → OutcomeTracker}
  {p : Parameters α} {table : ValueTable α} {s : σ}

omit [Arith α] in
theorem ends_enterRewards (h : Journal.Discreet tracker) (table : ValueTable α)
    (rewards : List (Reward α)) (n : Reward α → Note) (s : σ) :
    Ends (rewards.forM fun r => do Action.change r.enter; Action.note (n r)) (table, s) fun _ u =>
      u.1 = rewards.foldl (fun t r => r.enter t) table ∧ tracker u.2 = tracker s := by
  induction rewards generalizing table s with
  | nil => exact ⟨rfl, rfl⟩
  | cons r rest ih =>
    show Ends ((do Action.change r.enter; Action.note (n r)) >>= fun _ => rest.forM _) (table, s) _
    rw [ends_bind, ends_bind, ends_change, ends_note]
    refine ⟨h.obstacle?_eq_none _ s, (ih (r.enter table) (Journal.enter (n r) s)).mono ?_⟩
    rintro _ u ⟨htable, htracker⟩
    exact ⟨htable, htracker.trans (h.view_enter _ s)⟩

/-- A pass over a configuration of the table ends, with the table that the one before settles. -/
theorem ends_apply (h : Journal.Discreet tracker) (hslots : (tracker s).slots = table.slots)
    (hchannels : (tracker s).channels = table.channels) {configuration : List Datum}
    (hcfg : IsConfiguration table.slots table.channels configuration) :
    Ends (apply p (tracker s) configuration) (table, s) fun _ u =>
      u.1 = snapshot p (tracker s).cell configuration table ∧ tracker u.2 = tracker s := by
  obtain ⟨hfault, hrewards⟩ := pass_eq (p := p) hslots hchannels hcfg
  unfold apply
  rw [ends_bind, ends_part, ends_bind, hfault]
  refine (ends_enterRewards h table _ _ s).mono ?_
  rintro _ ⟨_, t⟩ ⟨rfl, htracker⟩
  exact ⟨hrewards, htracker⟩

theorem apply_of_length_ne (outcomes : OutcomeTracker) {configuration : List Datum}
    (hlen : configuration.length ≠ table.slots) (s : σ) :
    apply p outcomes configuration (table, s) = .error (.violated "") (table, s) := by
  simp only [apply, bind, EStateM.bind, Action.part, pass_of_length_ne hlen]
  rfl

/-- A pass over a table with a channel of it for every slot ends. Every configured cell then has
the value that the rule makes of the table before the pass, with the largest value that the row
behind had then and none behind the last one; all other cells and all outcomes are as they were.
A configuration of another length is refused and nothing is written. -/
theorem apply_reads_table_before_pass (h : Journal.Discreet tracker)
    (hslots : (tracker s).slots = table.slots)
    (hchannels : (tracker s).channels = table.channels) :
    (∀ cs : List Int, cs.length = table.slots → (∀ c ∈ cs, 0 ≤ c ∧ c < table.channels) →
      ∃ table' s', apply p (tracker s) (Datum.ofInts cs) (table, s) = .ok () (table', s') ∧
        tracker s' = tracker s ∧
        table'.slots = table.slots ∧ table'.channels = table.channels ∧
        ∀ t < table.slots, ∀ c < table.channels, table'.cell t c =
          if cs[t]? = some (c : Int) then
            if t + 1 = table.slots then
              (1 - p.alpha) * table.cell t c + p.alpha * p.reward ((tracker s).cell t c)
            else
              (1 - p.alpha) * table.cell t c + p.alpha *
                (p.reward ((tracker s).cell t c) + p.gamma * table.largestIn (t + 1))
          else table.cell t c) ∧
    ∀ configuration : List Datum, configuration.length ≠ table.slots →
      apply p (tracker s) configuration (table, s) = .error (.violated "") (table, s) := by
  refine ⟨fun cs hlen hcs => ?_, fun configuration hlen => apply_of_length_ne _ hlen s⟩
  have hcfg : IsConfiguration table.slots table.channels (Datum.ofInts cs) := ⟨cs, rfl, hlen, hcs⟩
  obtain ⟨_, ⟨table', s'⟩, happly, htable, htracker⟩ :=
    ends_iff.1 (ends_apply (p := p) h hslots hchannels hcfg)
  have hsize : table'.slots = table.slots ∧ table'.channels = table.channels := by
    rw [show table' = _ from htable]
    exact ⟨slots_snapshot .., channels_snapshot ..⟩
  refine ⟨table', s', happly, htracker, hsize.1, hsize.2, fun t ht c hc => ?_⟩
  rw [show table' = _ from htable, cell_snapshot p _ _ ht hc, channelAt?_ofInts]

/-- A pass over two slots, with a success in the first one. -/
theorem apply_reads_table_before_pass_two_slots :
    let table : ValueTable Float := ((Grid.empty 2 2 0.0).set 1 0 4.0).set 1 1 3.0
    let outcomes : OutcomeTracker := (Grid.empty 2 2 false).set 0 1 true
    let p : Parameters Float := { Parameters.level 0.5 1 with successReward := 10.0 }
    ∃ table' s', apply p outcomes (Datum.ofInts [1, 0]) (table, outcomes, Whims.start [])
        = .ok () (table', s') ∧ s'.1 = outcomes ∧
      table'.cell 0 1 = (1 - 0.5) * table.cell 0 1 + 0.5 * (10.0 + 0.5 * table.largestIn 1) ∧
      table'.cell 1 0 = (1 - 0.5) * table.cell 1 0 + 0.5 * 0.5 ∧
      table'.cell 1 1 = table.cell 1 1 := by
  intro table outcomes p
  have hdiscreet : Journal.Discreet (σ := OutcomeTracker × Whims) Prod.fst :=
    ⟨fun _ _ => rfl, fun _ _ => rfl⟩
  have hslots : outcomes.slots = table.slots := rfl
  have hchannels : outcomes.channels = table.channels := rfl
  obtain ⟨table', s', happly, htracker, -, -, hcell⟩ :=
    (apply_reads_table_before_pass (p := p) (s := (outcomes, Whims.start []))
      hdiscreet hslots hchannels).1 [1, 0] rfl (by decide)
  exact ⟨table', s', happly, htracker, hcell 0 (by decide) 1 (by decide),
    hcell 1 (by decide) 0 (by decide), hcell 1 (by decide) 1 (by decide)⟩

end TschLearning.Lookahead
