import TschLearning.Deployer
import TschLearning.Proofs.Action.Ends
import TschLearning.Proofs.Links.Distinct

/-! Configurations of integers, and what deployers of either kind make of them. -/

namespace TschLearning

theorem Datum.mapM_toInt_ofInts (is : List Int) : (ofInts is).mapM toInt = .ok is := by
  induction is with
  | nil => rfl
  | cons i rest ih =>
    rw [ofInts] at ih
    rw [ofInts, List.map_cons, List.mapM_cons, ih]
    rfl

theorem HoppingSequence.ofItems_ofInts (is : List Int) : ofItems (Datum.ofInts is) = .ok ⟨is⟩ := by
  rw [ofItems, Datum.mapM_toInt_ofInts]
  rfl

/-- A channel for every slot, or channels for some slots, none of them twice. -/
inductive IntConfiguration where
  | row (channels : List Int)
  | table (entries : List (Int × Int)) (nodup : (entries.map (·.1)).Nodup)

namespace IntConfiguration

/-- The configuration as it is handed over. -/
def given : IntConfiguration → Configuration
  | .row channels => .channels (Datum.ofInts channels)
  | .table entries _ => .pairs (entries.map fun e => (.int e.1, .int e.2))

def links : IntConfiguration → Links
  | .row channels => .ofChannels channels
  | .table entries _ => ⟨entries⟩

/-- The hopping sequence of the configuration; a table stands for its slots. -/
def sequence : IntConfiguration → HoppingSequence
  | .row channels => ⟨channels⟩
  | .table entries _ => ⟨entries.map (·.1)⟩

theorem distinct_links (c : IntConfiguration) : c.links.Distinct := by
  cases c with
  | row channels => exact Links.distinct_ofChannels channels
  | table entries nodup => exact nodup

end IntConfiguration

theorem LinkDeployer.linksOfItems_ofInts (is : List Int) :
    linksOfItems (Datum.ofInts is) = .ok (.ofChannels is) := by
  rw [linksOfItems, Datum.mapM_toInt_ofInts]
  rfl

theorem LinkDeployer.linksOfPairs_int {entries : List (Int × Int)}
    (h : (entries.map (·.1)).Nodup) :
    linksOfPairs (entries.map fun e => (.int e.1, .int e.2)) = .ok ⟨entries⟩ := by
  have hpairs : (entries.map fun e => (Datum.int e.1, Datum.int e.2)).mapM
      (fun e => do return (← e.1.toInt, ← e.2.toInt)) = Except.ok (ε := Fault) entries := by
    clear h
    induction entries with
    | nil => rfl
    | cons e rest ih =>
      rw [List.map_cons, List.mapM_cons, ih]
      rfl
  rw [linksOfPairs, hpairs]
  exact congrArg (fun es => Except.ok (Links.mk es)) (Links.entries_ofPairs h)

namespace Deployer

open TschLearning.Action

variable {μ σ : Type} [Journal σ]

/-- Deploys configurations one after the other; gives the answers. -/
def deployEach (access : MacAccess μ σ) :
    List IntConfiguration → Action (Deployer μ × σ) (List Bool)
  | [] => pure []
  | c :: rest => do
    let answer ← deploy access c.given
    return answer :: (← deployEach access rest)

variable {access : MacAccess μ σ} {s : σ}

theorem deployEach_cons_eq_ok {c : IntConfiguration} {rest : List IntConfiguration} {answer : Bool}
    {answers : List Bool} {p q r : Deployer μ × σ} (h : deploy access c.given p = .ok answer q)
    (hrest : deployEach access rest q = .ok answers r) :
    deployEach access (c :: rest) p = .ok (answer :: answers) r := by
  simp only [deployEach, bind, EStateM.bind, h, hrest]
  rfl

theorem ends_deploy_links {d : LinkDeployer μ} {c : IntConfiguration}
    {post : Bool → Deployer μ × σ → Prop} :
    Ends (deploy access c.given) (.links d, s) post ↔
      Ends (LinkDeployer.deploy access c.links) (d, s) fun b t => post b (.links t.1, t.2) := by
  unfold deploy
  rw [ends_bind, ends_part]
  cases c with
  | row channels =>
    simp only [IntConfiguration.given, IntConfiguration.links, ends_bind, ends_ofExcept,
      LinkDeployer.linksOfItems_ofInts, Except.ok.injEq, exists_eq_left', ends_within]
  | table entries nodup =>
    simp only [IntConfiguration.given, IntConfiguration.links, ends_bind, ends_ofExcept,
      LinkDeployer.linksOfPairs_int nodup, Except.ok.injEq, exists_eq_left', ends_within]

theorem deploy_links_eq_ok {d d' : LinkDeployer μ} {c : IntConfiguration} {answer : Bool} {t : σ}
    (h : LinkDeployer.deploy access c.links (d, s) = .ok answer (d', t)) :
    deploy access c.given (.links d, s) = .ok answer (.links d', t) := by
  have hends : Ends (deploy access c.given) (.links d, s)
      fun b u => b = answer ∧ u = (.links d', t) :=
    ends_deploy_links.2 (ends_iff.2 ⟨_, _, h, rfl, rfl⟩)
  obtain ⟨_, _, he, rfl, rfl⟩ := ends_iff.1 hends
  exact he

theorem ends_deploy_given {d : SequenceDeployer μ} {c : IntConfiguration}
    {post : Bool → Deployer μ × σ → Prop} :
    Ends (deploy access c.given) (.sequence d, s) post ↔
      Ends (SequenceDeployer.deploy access c.sequence) (d, s)
        fun b t => post b (.sequence t.1, t.2) := by
  unfold deploy
  simp only [ends_bind, ends_part]
  cases c with
  | row channels =>
    simp only [IntConfiguration.given, IntConfiguration.sequence, ends_ofExcept,
      HoppingSequence.ofItems_ofInts, Except.ok.injEq, exists_eq_left', ends_within]
  | table entries nodup =>
    have hkeys : (entries.map fun e => (Datum.int e.1, Datum.int e.2)).map (·.1)
        = Datum.ofInts (entries.map (·.1)) := by
      rw [Datum.ofInts, List.map_map, List.map_map]
      rfl
    simp only [IntConfiguration.given, IntConfiguration.sequence, hkeys, ends_ofExcept,
      HoppingSequence.ofItems_ofInts, Except.ok.injEq, exists_eq_left', ends_within]

theorem deploy_sequence_eq_ok {d d' : SequenceDeployer μ} {c : IntConfiguration} {answer : Bool}
    {t : σ} (h : SequenceDeployer.deploy access c.sequence (d, s) = .ok answer (d', t)) :
    deploy access c.given (.sequence d, s) = .ok answer (.sequence d', t) := by
  have hends : Ends (deploy access c.given) (.sequence d, s)
      fun b u => b = answer ∧ u = (.sequence d', t) :=
    ends_deploy_given.2 (ends_iff.2 ⟨_, _, h, rfl, rfl⟩)
  obtain ⟨_, _, he, rfl, rfl⟩ := ends_iff.1 hends
  exact he

end Deployer
end TschLearning
