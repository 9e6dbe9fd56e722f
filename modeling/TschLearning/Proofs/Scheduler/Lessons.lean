import TschLearning.Proofs.Scheduler.Ledger
import Mathlib.Data.List.Forall2

/-! Runs of a channel scheduler on its own. Whatever the deployer answers and whatever is drawn,
the values are those that the ledger of the run teaches. -/

namespace TschLearning

namespace ChannelHopping

open TschLearning.Action

variable {σ α : Type}

inductive Stimulus where
  | boundary (asn : Nat)
  | outcome (slot channel : Nat) (success : Bool)

namespace Stimulus

def asn? : Stimulus → Option Nat
  | .boundary asn => some asn
  | .outcome .. => none

/-- An outcome in a cell of the table. -/
def Within (slots channels : Nat) : Stimulus → Prop
  | .boundary _ => True
  | .outcome slot channel _ => slot < slots ∧ channel < channels

end Stimulus

/-- The deployments of a scheduler are written down, the latest last. -/
def Needs.recording (needs : Needs σ α) : Needs (List Deployment × σ) α where
  deploy configuration := fun (ds, s) => match needs.deploy configuration s with
    | .ok answer t => .ok answer (ds ++ [⟨configuration, answer⟩], t)
    | .error f t => .error f (ds, t)
  draws := needs.draws.outside

variable [Arith α] [Journal σ]

def handle (needs : Needs σ α) : Stimulus → Action (ChannelHopping α × σ) Unit
  | .boundary asn => onSlotBoundary needs (.int asn)
  | .outcome slot channel success => recordOutcome (.int slot) (.int channel) success

def handleEach (needs : Needs σ α) : List Stimulus → Action (ChannelHopping α × σ) Unit
  | [] => pure ()
  | e :: rest => do
    handle needs e
    handleEach needs rest

/-- What has happened in a call, in order. The policy is deployed behind the closing of the
slotframe, the first configuration before it. -/
def occurrences (slots : Nat) (made : List Deployment) : Stimulus → List Occurrence
  | .outcome slot channel success => [.outcome slot channel success]
  | .boundary asn =>
    if Closes slots asn then
      made.dropLast.map .deployed ++ .closed :: made.getLast?.toList.map .deployed
    else made.map .deployed

/-- Calls a scheduler time after time; gives what has happened. -/
def traceEach (needs : Needs σ α) : List Stimulus → Action (ChannelHopping α × σ) (List Occurrence)
  | [] => pure []
  | e :: rest => fun (c, s) =>
    match handle needs.recording e (c, [], s) with
    | .ok _ (c', made, s') => ((occurrences c.table.slots made e ++ ·) <$> traceEach needs rest) (c', s')
    | .error f (c', _, s') => .error f (c', s')

def ledgerOf (threshold : Nat) (trace : List Occurrence) : Ledger :=
  trace.foldl (Ledger.after threshold) .empty

/-- A deployer that answers, draws within their bounds, and a journal that takes every note. -/
structure Needs.Proper (needs : Needs σ α) (channels : Nat) : Prop where
  deploy_ends : ∀ configuration s, Ends (needs.deploy configuration) s fun _ _ => True
  uniform_ends : ∀ s, Ends needs.draws.uniform s fun _ _ => True
  below_ends : ∀ s, Ends (needs.draws.below channels) s fun i _ => 0 ≤ i ∧ i < channels
  obstacle?_eq_none : ∀ (n : Note) (s : σ), Journal.obstacle? n s = none

/-- The deployments written down, beside the state itself. -/
def Written (ds : List Deployment) (p : List Deployment × σ) (s : σ) : Prop := p = (ds, s)

variable {needs : Needs σ α} {slots channels : Nat}

omit [Arith α] in
/-- A scheduler does the same whether its deployments are written down or not. -/
theorem Needs.Proper.coupled (h : needs.Proper channels) (slots : Nat) :
    Coupled needs.recording needs slots channels Written where
  deploy {ds p s configuration} hp _ := by
    subst hp
    obtain ⟨answer, t, hd, -⟩ := ends_iff.1 (h.deploy_ends configuration s)
    refine twin_iff.2 ⟨answer, _, answer, t, ?_, hd, rfl, rfl⟩
    simp only [recording, hd]
  uniform {ds p s} hp := by
    subst hp
    obtain ⟨u, t, hu, -⟩ := ends_iff.1 (h.uniform_ends s)
    refine twin_iff.2 ⟨u, _, u, t, ?_, hu, rfl, rfl⟩
    simp only [recording, Draws.outside, Action.outside, hu]
  below {ds p s} hp := by
    subst hp
    obtain ⟨i, t, hi, hrange⟩ := ends_iff.1 (h.below_ends s)
    refine twin_iff.2 ⟨i, _, i, t, ?_, hi, rfl, hrange, rfl⟩
    simp only [recording, Draws.outside, Action.outside, hi]
  note {ds p s} n hp := by
    subst hp
    exact ⟨h.obstacle?_eq_none n s, h.obstacle?_eq_none n s, rfl⟩

/-- Deployments that a ledger takes down. -/
theorem Follows.answeredAll {params : Parameters α} {l : Ledger} {c : ChannelHopping α}
    (h : Follows params slots channels l c) {ds : List Deployment}
    (hds : ∀ d ∈ ds, IsConfiguration slots channels d.configuration) :
    Follows params slots channels
      ((ds.map Occurrence.deployed).foldl (Ledger.after params.deactivationThreshold) l)
      (ds.foldl ChannelHopping.answered c) := by
  induction ds generalizing l c with
  | nil => exact h
  | cons d ds ih =>
    exact ih (h.answered (hds d List.mem_cons_self)) fun d' hd' =>
      hds d' (List.mem_cons_of_mem _ hd')

theorem Follows.reached {params : Parameters α} {l : Ledger} {c : ChannelHopping α}
    (h : Follows params slots channels l c) {asn : Nat} {first policy : List Deployment}
    (hd : Handed slots channels c asn first policy) :
    Follows params slots channels
      ((occurrences slots (first ++ policy) (.boundary asn)).foldl
        (Ledger.after params.deactivationThreshold) l) (c.reached asn first policy) := by
  have hfirst : ∀ d ∈ first, IsConfiguration slots channels d.configuration := by
    intro d hmem
    have hf := hd.first_eq
    split at hf
    · obtain ⟨answer, rfl⟩ := hf
      rw [List.mem_singleton.1 hmem]
      exact h.valid.configured
    · subst hf
      exact absurd hmem List.not_mem_nil
  have hstart := (h.at (some asn)).answeredAll hfirst
  have hp := hd.policy_eq
  simp only [ChannelHopping.reached, occurrences]
  split at hp
  · rename_i hcloses
    obtain ⟨d, rfl, hcfg⟩ := hp
    rw [if_pos hcloses, List.dropLast_concat, List.getLast?_concat, List.foldl_append]
    exact hstart.closed hcfg
  · rename_i hcloses
    subst hp
    rw [if_neg hcloses, List.append_nil]
    exact hstart

/-- One call, with its deployments written down and without. -/
theorem handle_eq_ok (hneeds : needs.Proper channels) {params : Parameters α} {l : Ledger}
    {c : ChannelHopping α} (h : Follows params slots channels l c) {e : Stimulus}
    (hwithin : e.Within slots channels)
    (hlater : ∀ last ∈ c.asn, ∀ asn ∈ e.asn?, last < asn) (s : σ) :
    ∃ c' made s', handle needs.recording e (c, [], s) = .ok () (c', made, s') ∧
      handle needs e (c, s) = .ok () (c', s') ∧
      (c'.asn = e.asn?.or c.asn) ∧
      Follows params slots channels
        ((occurrences slots made e).foldl (Ledger.after params.deactivationThreshold) l) c' := by
  have hcoupled := hneeds.coupled slots
  cases e with
  | boundary asn =>
    have hasn : ∀ last, c.asn = some last → last < asn := fun last hl => hlater last hl asn rfl
    obtain ⟨_, ⟨_, _⟩, _, ⟨_, s'⟩, hrec, hplain, first, policy, hd, rfl, rfl, hw⟩ :=
      twin_iff.1 (hcoupled.twin_onSlotBoundary (s := ([], s)) (t := s) rfl h.valid hasn)
    cases hw
    exact ⟨_, _, s', hrec, hplain, asn_reached c asn first policy, h.reached hd⟩
  | outcome slot channel success =>
    obtain ⟨_, ⟨_, _⟩, _, ⟨_, s'⟩, hrec, hplain, rfl, rfl, hw⟩ :=
      twin_iff.1 (hcoupled.twin_recordOutcome (s := ([], s)) (t := s) rfl h.valid hwithin.1 hwithin.2
        success)
    cases hw
    exact ⟨_, _, s', hrec, hplain, asn_informed c slot channel success,
      h.informed hwithin.1 hwithin.2 success⟩

theorem traceEach_eq_ok (hneeds : needs.Proper channels) {params : Parameters α} {l : Ledger}
    {c : ChannelHopping α} (h : Follows params slots channels l c) {events : List Stimulus}
    (hwithin : ∀ e ∈ events, e.Within slots channels)
    (hasn : (events.filterMap Stimulus.asn?).Pairwise (· < ·))
    (hlater : ∀ last ∈ c.asn, ∀ asn ∈ events.filterMap Stimulus.asn?, last < asn) (s : σ) :
    ∃ trace c' s', traceEach needs events (c, s) = .ok trace (c', s') ∧
      handleEach needs events (c, s) = .ok () (c', s') ∧
      Follows params slots channels
        (trace.foldl (Ledger.after params.deactivationThreshold) l) c' := by
  induction events generalizing l c s with
  | nil => exact ⟨[], c, s, rfl, rfl, h⟩
  | cons e rest ih =>
    obtain ⟨c', made, s', hrec, hplain, hnow, hfollows⟩ :=
      handle_eq_ok hneeds h (hwithin e List.mem_cons_self)
        (fun last hl asn he => hlater last hl asn (by
          rw [List.filterMap_cons, he]
          exact List.mem_cons_self)) s
    have hrest : (rest.filterMap Stimulus.asn?).Pairwise (· < ·) ∧
        ∀ last ∈ c'.asn, ∀ asn ∈ rest.filterMap Stimulus.asn?, last < asn := by
      rw [hnow]
      rw [List.filterMap_cons] at hasn hlater
      cases he : e.asn? with
      | none =>
        rw [he] at hasn hlater
        exact ⟨hasn, hlater⟩
      | some asn =>
        rw [he, List.pairwise_cons] at hasn
        refine ⟨hasn.2, fun last hl => ?_⟩
        cases hl
        exact hasn.1
    obtain ⟨trace, c'', s'', htrace, heach, hend⟩ :=
      ih hfollows (fun e' he' => hwithin e' (List.mem_cons_of_mem _ he')) hrest.1 hrest.2 s'
    refine ⟨occurrences slots made e ++ trace, c'', s'', ?_, ?_, ?_⟩
    · simp only [traceEach, hrec, h.valid.slots_table]
      show EStateM.map _ _ _ = _
      simp only [EStateM.map, htrace]
    · simp only [handleEach, bind, EStateM.bind, hplain, heach]
    · rw [List.foldl_append]
      exact hend

/-- Two lessons that differ at most in cells that their configuration does not use. -/
def Lesson.Alike (a b : Lesson) : Prop :=
  a.configuration = b.configuration ∧
    ∀ t c : Nat, channelAt? a.configuration t = some (c : Int) → a.won t c = b.won t c

omit [Journal σ] in
/-- Cells that no configuration uses teach nothing. -/
theorem tableOf_congr (params : Parameters α) (slots channels : Nat) {as bs : List Lesson}
    (h : List.Forall₂ Lesson.Alike as bs) :
    Ledger.tableOf params slots channels as = Ledger.tableOf params slots channels bs := by
  unfold Ledger.tableOf
  generalize Grid.empty slots channels (0 : α) = table
  induction h generalizing table with
  | nil => rfl
  | @cons a b as bs hab _ ih =>
    have hfirst : Lookahead.snapshot params a.won a.configuration table =
        Lookahead.snapshot params b.won b.configuration table := by
      rw [← hab.1]
      exact Lookahead.snapshot_congr fun t _ c _ hcfg => hab.2 t c hcfg
    rw [List.foldl_cons, List.foldl_cons, hfirst]
    exact ih _

/-- The values of a scheduler are those that its ledger teaches: one lesson for every slotframe
closed beyond the threshold and after an accepted deployment, with the configuration accepted
last and the cells that had a success since the closing before. So the order of outcomes, their
number, failures after a success and cells without a configured channel do not count. -/
theorem table_eq_tableOf_lessons {params : Parameters α} {name : Datum} {voice : Voice}
    {c : ChannelHopping α} (hcreate : create params name voice (.int slots) (.int channels) = .ok c)
    {cs : List Int} (hlen : cs.length = slots) (hcs : ∀ i ∈ cs, 0 ≤ i ∧ i < channels)
    (hneeds : needs.Proper channels) {events : List Stimulus}
    (hasn : (events.filterMap Stimulus.asn?).Pairwise (· < ·))
    (hwithin : ∀ e ∈ events, e.Within slots channels) (s : σ) :
    ∃ trace c' s',
      traceEach needs events (c.startingWith cs, s) = .ok trace (c', s') ∧
      handleEach needs events (c.startingWith cs, s) = .ok () (c', s') ∧
      c'.table = Ledger.tableOf params slots channels
        (ledgerOf params.deactivationThreshold trace).lessons ∧
      ∀ lessons, List.Forall₂ Lesson.Alike (ledgerOf params.deactivationThreshold trace).lessons
        lessons → c'.table = Ledger.tableOf params slots channels lessons := by
  obtain ⟨hfits, rfl⟩ := create_eq_ok hcreate
  obtain ⟨trace, c', s', htrace, heach, hend⟩ :=
    traceEach_eq_ok hneeds (follows_fresh hfits hlen hcs) hwithin hasn (fun _ hl => by cases hl) s
  refine ⟨trace, c', s', htrace, heach, hend.table_eq, fun lessons h => ?_⟩
  exact hend.table_eq.trans (tableOf_congr params slots channels h)

/-- Answers that are prepared for deployments; any further one is accepted. -/
structure Script where
  answers : List Bool

instance : Journal Script where
  enter _ s := s

/-- A deployer that answers by its script, and draws that are always the same. -/
def Script.answering : Needs Script Float where
  deploy _ := fun s => .ok (s.answers.headD true) ⟨s.answers.tail⟩
  draws := { uniform := pure 0.5, below := fun _ => pure 0 }

def threeSlotframes : List Stimulus :=
  [.boundary 0, .outcome 1 2 true, .boundary 2, .outcome 0 1 false, .outcome 0 1 true,
    .boundary 5, .boundary 6]

/-- A run over three slotframes, with a refused first deployment. -/
theorem table_eq_tableOf_lessons_script :
    ∃ trace c' s',
      traceEach Script.answering threeSlotframes
        ((fresh (.level 0.5 1) (.text "PAN") .ofModule 2 3).startingWith [0, 2], ⟨[false]⟩)
        = .ok trace (c', s') ∧
      c'.table = Ledger.tableOf (.level 0.5 1) 2 3 (ledgerOf 1 trace).lessons := by
  have hcreate : create (.level 0.5 1) (.text "PAN") .ofModule (.int (2 : Nat)) (.int (3 : Nat))
      = .ok (fresh (.level (0.5 : Float) 1) (.text "PAN") .ofModule 2 3) := rfl
  have hproper : Script.answering.Proper 3 := {
    deploy_ends := fun _ _ => trivial
    uniform_ends := fun _ => trivial
    below_ends := fun _ => by
      show (0 : Int) ≤ 0 ∧ (0 : Int) < 3
      decide
    obstacle?_eq_none := fun _ _ => rfl }
  have hasn : (threeSlotframes.filterMap Stimulus.asn?).Pairwise (· < ·) := by decide
  have hwithin : ∀ e ∈ threeSlotframes, e.Within 2 3 := by
    simp [threeSlotframes, Stimulus.Within]
  obtain ⟨trace, c', s', htrace, -, htable, -⟩ :=
    table_eq_tableOf_lessons hcreate (show [(0 : Int), 2].length = 2 from rfl) (by decide) hproper
      hasn hwithin ⟨[false]⟩
  exact ⟨trace, c', s', htrace, htable⟩

end ChannelHopping
end TschLearning
