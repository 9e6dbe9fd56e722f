import TschLearning.Proofs.Deployer.Configurations
import TschLearning.Proofs.Mac.Schedules

/-! Deployments to MAC layers that take or refuse every edit of their schedule and do nothing else
about it. Each deployment ends with an answer, and only an accepted one changes what was deployed
last. -/

namespace TschLearning

variable {μ σ : Type} [Journal σ]

/-- Every edit of a schedule ends or is refused, and every note can be made. -/
structure MacAccess.Responsive (access : MacAccess μ σ) : Prop where
  deleteLink : ∀ i slot s, (access.deleteLink i slot).refusal?.Ends s fun _ _ => True
  addLink : ∀ i slot channel s, (access.addLink i slot channel).refusal?.Ends s fun _ _ => True
  checkSequence : ∀ i channels s, (access.checkSequence i channels).refusal?.Ends s fun _ _ => True
  setSequence : ∀ i channels s, (access.setSequence i channels).refusal?.Ends s fun _ _ => True
  obstacle?_eq_none : ∀ (n : Note) (s : σ), Journal.obstacle? n s = none

namespace LinkDeployer

open TschLearning.Action

variable {access : MacAccess μ σ} (h : access.Responsive)

def answered (d : LinkDeployer μ) (links : Links) (answer : Bool) : LinkDeployer μ :=
  if answer then { d with last := links } else { d with failures := d.failures + 1 }

include h

theorem ends_edit_responsive (i : μ) (e : LinkEdit) (s : σ) :
    (edit access i e).refusal?.Ends s fun _ _ => True := by
  cases e with
  | delete slot channel => exact h.deleteLink i slot s
  | add slot channel => exact h.addLink i slot channel s

theorem ends_applyAll_responsive (made plan : List (μ × LinkEdit)) (s : σ) :
    Ends (applyAll access made plan) s fun _ _ => True := by
  induction plan generalizing made s with
  | nil => trivial
  | cons p plan ih =>
    unfold applyAll
    rw [ends_bind]
    apply (ends_edit_responsive h p.1 p.2 s).mono
    intro refusal t _
    cases refusal with
    | some why => trivial
    | none => exact ih _ t

theorem ends_undoAll_responsive (made : List (μ × LinkEdit)) (s : σ) :
    Ends (undoAll access made) s fun _ _ => True := by
  induction made generalizing s with
  | nil => trivial
  | cons p made ih =>
    unfold undoAll
    rw [ends_bind]
    apply (ends_edit_responsive h p.1 p.2.undo s).mono
    intro refusal t _
    cases refusal with
    | some why =>
      simp only [ends_bind, ends_note]
      exact ⟨h.obstacle?_eq_none _ _, ih _⟩
    | none => exact ih t

theorem ends_deploy_responsive (d : LinkDeployer μ) (links : Links) (s : σ) :
    Ends (deploy access links) (d, s) fun answer t => t.1 = d.answered links answer := by
  unfold deploy
  simp only [ends_bind, ends_part, ends_outside]
  apply (ends_applyAll_responsive h [] _ s).mono
  rintro ⟨made, refusal⟩ t _
  cases refusal with
  | none =>
    simp only [ends_bind, ends_change, ends_note, ends_pure]
    exact ⟨h.obstacle?_eq_none _ _, rfl⟩
  | some why =>
    simp only [ends_bind, ends_outside, ends_change, ends_note, ends_pure]
    apply (ends_undoAll_responsive h made t).mono
    intro _ u _
    exact ⟨h.obstacle?_eq_none _ _, rfl⟩

end LinkDeployer

namespace SequenceDeployer

open TschLearning.Action

variable {access : MacAccess μ σ} (h : access.Responsive)

def answered (d : SequenceDeployer μ) (sequence : HoppingSequence) (answer : Bool) :
    SequenceDeployer μ :=
  if answer then { d with last := some sequence } else { d with failures := d.failures + 1 }

include h

theorem ends_checkAll_responsive (channels : List Int) (todo : List μ) (s : σ) :
    Ends (checkAll access channels todo) s fun _ _ => True := by
  induction todo generalizing s with
  | nil => trivial
  | cons i todo ih =>
    unfold checkAll
    rw [ends_bind]
    apply (h.checkSequence i channels s).mono
    intro refusal t _
    cases refusal with
    | some why => trivial
    | none => exact ih t

theorem ends_setAll_responsive (channels : List Int) (todo : List μ) (s : σ) :
    Ends (setAll access channels todo) s fun _ _ => True := by
  induction todo generalizing s with
  | nil => trivial
  | cons i todo ih =>
    unfold setAll
    rw [ends_bind]
    apply (h.setSequence i channels s).mono
    intro refusal t _
    cases refusal with
    | some why => trivial
    | none =>
      rw [ends_bind]
      exact (ih t).mono fun _ _ _ => trivial

theorem ends_restoreAll_responsive (channels : List Int) (updated : List μ) (s : σ) :
    Ends (restoreAll access channels updated) s fun _ _ => True := by
  induction updated generalizing s with
  | nil => trivial
  | cons i updated ih =>
    unfold restoreAll
    rw [ends_bind]
    apply (h.setSequence i channels s).mono
    intro refusal t _
    cases refusal with
    | some why =>
      simp only [ends_bind, ends_note]
      exact ⟨h.obstacle?_eq_none _ _, ih _⟩
    | none => exact ih t

theorem ends_giveUp_responsive (d : SequenceDeployer μ) (updated : List μ) (why : Fault) (s : σ) :
    Ends (giveUp access updated why) (d, s) fun answer t =>
      answer = false ∧ t.1 = { d with failures := d.failures + 1 } := by
  have hrollback : Ends (rollback access d updated) s fun _ _ => True := by
    unfold rollback
    cases d.last with
    | some previous => exact ends_restoreAll_responsive h previous.channels updated s
    | none =>
      dsimp only
      split
      · trivial
      · rw [ends_note]
        exact ⟨h.obstacle?_eq_none _ _, trivial⟩
  unfold giveUp
  simp only [ends_bind, ends_part, ends_outside, ends_change, ends_note, ends_pure]
  apply hrollback.mono
  intro _ t _
  exact ⟨h.obstacle?_eq_none _ _, trivial, rfl⟩

theorem ends_deploy_responsive (d : SequenceDeployer μ) (sequence : HoppingSequence) (s : σ) :
    Ends (deploy access sequence) (d, s) fun answer t => t.1 = d.answered sequence answer := by
  have hgiveUp : ∀ updated why t, Ends (giveUp access updated why) (d, t) fun answer u =>
      u.1 = d.answered sequence answer := by
    intro updated why t
    apply (ends_giveUp_responsive h d updated why t).mono
    rintro _ u ⟨rfl, hu⟩
    exact hu
  unfold deploy
  simp only [ends_bind, ends_part, ends_outside]
  apply (ends_checkAll_responsive h sequence.channels d.macs s).mono
  intro refusal t _
  cases refusal with
  | some why => exact hgiveUp _ _ _
  | none =>
    simp only [ends_bind, ends_outside]
    apply (ends_setAll_responsive h sequence.channels d.macs t).mono
    rintro ⟨updated, refusal⟩ u _
    cases refusal with
    | some why => exact hgiveUp _ _ _
    | none =>
      simp only [ends_bind, ends_change, ends_note, ends_pure]
      exact ⟨h.obstacle?_eq_none _ _, rfl⟩

end SequenceDeployer

namespace Deployer

open TschLearning.Action

variable {access : MacAccess μ σ} {d : Deployer μ} {x : Option (List Int)}

/-- What was deployed last is the given row of channels, as a hopping sequence or as links; none
if nothing was. -/
def HasDeployed (d : Deployer μ) (x : Option (List Int)) : Prop :=
  match d with
  | .sequence d => d.last = x.map HoppingSequence.mk
  | .links d => d.last = .ofConfiguration x

theorem hasDeployed_create (mode : DeployMode) (ids : List μ) :
    (create mode ids).HasDeployed none := by
  cases mode <;> rfl

/-- An accepted deployment is the last one from then on, and a refused one changes nothing but the
number of failures. -/
theorem HasDeployed.ends_deploy (h : access.Responsive) (hd : d.HasDeployed x) (cs : List Int)
    (s : σ) :
    Ends (deploy access (.channels (Datum.ofInts cs))) (d, s) fun answer t =>
      t.1.HasDeployed (if answer then some cs else x) ∧
        t.1.failures = d.failures + if answer then 0 else 1 := by
  cases d with
  | sequence d =>
    apply (ends_deploy_given (c := .row cs)).2
    apply (SequenceDeployer.ends_deploy_responsive h d ⟨cs⟩ s).mono
    rintro answer ⟨d', t⟩ ht
    obtain rfl : d' = d.answered ⟨cs⟩ answer := ht
    cases answer with
    | true => exact ⟨rfl, rfl⟩
    | false => exact ⟨hd, rfl⟩
  | links d =>
    apply (ends_deploy_links (c := .row cs)).2
    apply (LinkDeployer.ends_deploy_responsive h d (.ofChannels cs) s).mono
    rintro answer ⟨d', t⟩ ht
    obtain rfl : d' = d.answered (.ofChannels cs) answer := ht
    cases answer with
    | true => exact ⟨rfl, rfl⟩
    | false => exact ⟨hd, rfl⟩

end Deployer
end TschLearning
