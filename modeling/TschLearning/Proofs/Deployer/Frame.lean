import TschLearning.Deployer
import TschLearning.Proofs.Action.Keeps
import TschLearning.Proofs.Mac.Edits

/-! What a deployment leaves alone, whether it is taken, given up or breaks off: of the MAC layers
everything but the sequences and links of those that the deployer has, and of the rest everything
but the journal. Every deployment that is not taken is counted as a failure, and no other one. -/

namespace TschLearning

open TschLearning.Action

variable {μ κ σ : Type}

namespace LinkDeployer

variable [Journal σ] {P : σ → Prop}

/-- An edit of a simulated device keeps what other links of the device cannot change. -/
theorem keeps_edit (shelf : Shelf μ (Mac κ) σ) (labels : μ → String) {i : μ}
    (hnote : ∀ (n : Note) s, P s → P (Journal.enter n s))
    (hput : ∀ mac l s, P s → shelf.get? i s = some mac → P (shelf.put i (mac.withLinks l) s))
    (e : LinkEdit) : Keeps P (fun _ => True) (edit (Mac.access shelf labels) i e) := by
  cases e with
  | delete slot channel =>
    refine (shelf.keeps_read i).bind fun mac _ => ?_
    refine (shelf.keeps_update fun mac remark mac' s hs hmac hdelete => ?_).bind fun remark _ => ?_
    · obtain ⟨_, rfl, -⟩ := Mac.deleteLink_eq hdelete
      exact hput mac _ s hs hmac
    · cases remark with
      | none => exact keeps_pure trivial
      | some r => exact keeps_note hnote _
  | add slot channel =>
    refine shelf.keeps_update fun mac _ mac' s hs hmac hadd => ?_
    obtain ⟨added, hmac', hadd⟩ := bind_eq_ok.1 hadd
    cases hadd
    obtain ⟨_, _, -, -, -, rfl⟩ := Mac.addLink_eq hmac'
    exact hput mac _ s hs hmac

variable {access : MacAccess μ σ} {macs : List μ}

omit [Journal σ] in
theorem keeps_applyAll (hedit : ∀ m ∈ macs, ∀ e, Keeps P (fun _ => True) (edit access m e))
    {made plan : List (μ × LinkEdit)} (hmade : ∀ p ∈ made, p.1 ∈ macs)
    (hplan : ∀ p ∈ plan, p.1 ∈ macs) :
    Keeps P (fun r => ∀ p ∈ r.1, p.1 ∈ macs) (applyAll access made plan) := by
  induction plan generalizing made with
  | nil => exact keeps_pure hmade
  | cons p rest ih =>
    rw [List.forall_mem_cons] at hplan
    refine (hedit p.1 hplan.1 p.2).refusal?.bind fun refusal _ => ?_
    cases refusal with
    | none => exact ih (List.forall_mem_cons.2 ⟨hplan.1, hmade⟩) hplan.2
    | some why => exact keeps_pure hmade

theorem keeps_undoAll (hnote : ∀ (n : Note) s, P s → P (Journal.enter n s))
    (hedit : ∀ m ∈ macs, ∀ e, Keeps P (fun _ => True) (edit access m e))
    {made : List (μ × LinkEdit)} (hmade : ∀ p ∈ made, p.1 ∈ macs) :
    Keeps P (fun _ => True) (undoAll access made) := by
  induction made with
  | nil => exact keeps_pure trivial
  | cons p rest ih =>
    rw [List.forall_mem_cons] at hmade
    refine (hedit p.1 hmade.1 p.2.undo).refusal?.bind fun refusal _ => ?_
    cases refusal with
    | none => exact ih hmade.2
    | some why => exact (keeps_note hnote _).bind fun _ _ => ih hmade.2

/-- A deployment keeps what no edit of its devices can change. -/
theorem keeps_deploy (hnote : ∀ (n : Note) s, P s → P (Journal.enter n s))
    (hedit : ∀ m ∈ macs, ∀ e, Keeps P (fun _ => True) (edit access m e)) (links : Links) :
    Keeps (fun p => p.1.macs = macs ∧ P p.2) (fun _ => True) (deploy access links) := by
  have hbeside : ∀ (n : Note) (p : LinkDeployer μ × σ), p.1.macs = macs ∧ P p.2 →
      (Journal.enter n p).1.macs = macs ∧ P (Journal.enter n p).2 :=
    fun n p hp => ⟨hp.1, hnote n p.2 hp.2⟩
  unfold deploy
  refine (keeps_part (Q := fun d => d.macs = macs) fun _ _ hp => hp.1).bind fun d hd => ?_
  have hplan : ∀ p ∈ d.plan (LinkEdit.between d.last links), p.1 ∈ macs := by
    intro p hp
    obtain ⟨m, hm, hp⟩ := List.mem_flatMap.1 hp
    obtain ⟨e, -, rfl⟩ := List.mem_map.1 hp
    exact hd ▸ hm
  have happly := keeps_applyAll hedit (fun p hp => absurd hp List.not_mem_nil) hplan
  refine (happly.outside (T := fun d : LinkDeployer μ => d.macs = macs)).bind ?_
  rintro ⟨made, refusal⟩ hmade
  cases refusal with
  | none =>
    refine Keeps.bind (keeps_change fun d s hp => ?_) fun _ _ => ?_
    · exact hp
    · exact (keeps_note hbeside _).bind fun _ _ => keeps_pure trivial
  | some why =>
    have hundo := keeps_undoAll hnote hedit hmade
    refine (hundo.outside (T := fun d : LinkDeployer μ => d.macs = macs)).bind fun _ _ => ?_
    refine Keeps.bind (keeps_change fun d s hp => ?_) fun _ _ => ?_
    · exact hp
    · exact (keeps_note hbeside _).bind fun _ _ => keeps_pure trivial

/-- A failure is counted if the deployment is given up. -/
theorem failures_deploy (access : MacAccess μ σ) (links : Links) (d : LinkDeployer μ) (s : σ) :
    Meets True (deploy access links) (d, s) fun answer p =>
      p.1.failures = d.failures + (!answer).toNat := by
  unfold deploy
  simp only [meets_bind, meets_part, meets_outside]
  apply meets_of_forall
  rintro ⟨made, refusal⟩ t
  cases refusal with
  | none =>
    simp only [meets_bind, meets_change]
    exact meets_note_of_post rfl
  | some why =>
    simp only [meets_bind, meets_outside, meets_change]
    apply meets_of_forall
    intro _ u
    exact meets_note_of_post rfl

end LinkDeployer

namespace SequenceDeployer

variable [Journal σ]

section Keeps

variable {P : σ → Prop} {access : MacAccess μ σ}

omit [Journal σ] in
theorem keeps_checkAll
    (hcheck : ∀ m channels, Keeps P (fun _ => True) (access.checkSequence m channels))
    (channels : List Int) (macs : List μ) :
    Keeps P (fun _ => True) (checkAll access channels macs) := by
  induction macs with
  | nil => exact keeps_pure trivial
  | cons m rest ih =>
    refine (hcheck m channels).refusal?.bind fun refusal _ => ?_
    cases refusal with
    | none => exact ih
    | some why => exact keeps_pure trivial

variable (hset : ∀ m channels, Keeps P (fun _ => True) (access.setSequence m channels))

include hset

omit [Journal σ] in
theorem keeps_setAll (channels : List Int) (macs : List μ) :
    Keeps P (fun _ => True) (setAll access channels macs) := by
  induction macs with
  | nil => exact keeps_pure trivial
  | cons m rest ih =>
    refine (hset m channels).refusal?.bind fun refusal _ => ?_
    cases refusal with
    | none => exact ih.bind fun _ _ => keeps_pure trivial
    | some why => exact keeps_pure trivial

variable (hnote : ∀ (n : Note) s, P s → P (Journal.enter n s))

include hnote

theorem keeps_restoreAll (channels : List Int) (macs : List μ) :
    Keeps P (fun _ => True) (restoreAll access channels macs) := by
  induction macs with
  | nil => exact keeps_pure trivial
  | cons m rest ih =>
    refine (hset m channels).refusal?.bind fun refusal _ => ?_
    cases refusal with
    | none => exact ih
    | some why => exact (keeps_note hnote _).bind fun _ _ => ih

theorem keeps_rollback (d : SequenceDeployer μ) (updated : List μ) :
    Keeps P (fun _ => True) (rollback access d updated) := by
  unfold rollback
  cases d.last with
  | some previous => exact keeps_restoreAll hset hnote _ _
  | none =>
    dsimp only
    split
    · exact keeps_pure trivial
    · exact keeps_note hnote _

theorem keeps_giveUp (updated : List μ) (why : Fault) :
    Keeps (fun p => P p.2) (fun _ => True) (giveUp access updated why) := by
  unfold giveUp
  refine (keeps_part (Q := fun _ => True) fun _ _ _ => trivial).bind fun d _ => ?_
  refine (keeps_rollback hset hnote d updated).aside.bind fun _ _ => ?_
  refine Keeps.bind (keeps_change fun d s hp => hp) fun _ _ => ?_
  exact (keeps_note (fun n p hp => hnote n p.2 hp) _).bind fun _ _ => keeps_pure trivial

theorem keeps_deploy
    (hcheck : ∀ m channels, Keeps P (fun _ => True) (access.checkSequence m channels))
    (sequence : HoppingSequence) :
    Keeps (fun p => P p.2) (fun _ => True) (deploy access sequence) := by
  unfold deploy
  refine (keeps_part (Q := fun _ => True) fun _ _ _ => trivial).bind fun d _ => ?_
  refine (keeps_checkAll hcheck _ _).aside.bind fun refusal _ => ?_
  cases refusal with
  | some why => exact keeps_giveUp hset hnote [] why
  | none =>
    refine (keeps_setAll hset _ _).aside.bind ?_
    rintro ⟨updated, refusal⟩ _
    cases refusal with
    | some why => exact keeps_giveUp hset hnote updated why
    | none =>
      refine Keeps.bind (keeps_change fun d s hp => hp) fun _ _ => ?_
      exact (keeps_note (fun n p hp => hnote n p.2 hp) _).bind fun _ _ => keeps_pure trivial

end Keeps

theorem failures_deploy (access : MacAccess μ σ) (sequence : HoppingSequence)
    (d : SequenceDeployer μ) (s : σ) :
    Meets True (deploy access sequence) (d, s) fun answer p =>
      p.1.failures = d.failures + (!answer).toNat := by
  have hgiveUp : ∀ updated why (t : σ), Meets True (giveUp access updated why) (d, t)
      fun answer p => p.1.failures = d.failures + (!answer).toNat := by
    intro updated why t
    unfold giveUp
    simp only [meets_bind, meets_part, meets_outside, meets_change]
    apply meets_of_forall
    intro _ u
    exact meets_note_of_post rfl
  unfold deploy
  simp only [meets_bind, meets_part, meets_outside]
  apply meets_of_forall
  intro refusal t
  cases refusal with
  | some why => exact hgiveUp [] why t
  | none =>
    simp only [meets_bind, meets_outside]
    apply meets_of_forall
    rintro ⟨updated, refusal⟩ u
    cases refusal with
    | some why => exact hgiveUp updated why u
    | none =>
      simp only [meets_bind, meets_change]
      exact meets_note_of_post rfl

end SequenceDeployer

/-- Whatever a deployer is of, it keeps what no operation of its devices can change. -/
theorem Deployer.keeps_deploy [Journal σ] {P : σ → Prop} {access : MacAccess μ σ}
    (hnote : ∀ (n : Note) s, P s → P (Journal.enter n s))
    (hedit : ∀ m e, Keeps P (fun _ => True) (LinkDeployer.edit access m e))
    (hcheck : ∀ m channels, Keeps P (fun _ => True) (access.checkSequence m channels))
    (hset : ∀ m channels, Keeps P (fun _ => True) (access.setSequence m channels))
    (configuration : Configuration) :
    Keeps (fun p => P p.2) (fun _ => True) (Deployer.deploy access configuration) := by
  unfold Deployer.deploy
  refine (keeps_part (Q := fun _ => True) fun _ _ _ => trivial).bind fun d _ => ?_
  cases d with
  | sequence d =>
    refine (keeps_ofExcept _).bind fun sequence _ => ?_
    have hdeploy := SequenceDeployer.keeps_deploy hset hnote hcheck sequence
    exact (hdeploy.within (T := fun _ : Deployer μ => True) fun _ _ => id).congr
      fun _ => and_iff_right trivial
  | links d =>
    refine (keeps_ofExcept _).bind fun links _ => ?_
    have hdeploy := LinkDeployer.keeps_deploy hnote (fun m (_ : m ∈ d.macs) => hedit m) links
    exact (hdeploy.within_of (K := fun l => l.macs = d.macs) (T := fun _ : Deployer μ => True)
      (fun _ _ => rfl) fun _ _ _ => id).congr fun _ => and_iff_right trivial

theorem Deployer.failures_deploy [Journal σ] (access : MacAccess μ σ) (configuration : Configuration)
    (d : Deployer μ) (s : σ) :
    Meets True (Deployer.deploy access configuration) (d, s) fun answer p =>
      p.1.failures = d.failures + (!answer).toNat := by
  unfold Deployer.deploy
  rw [meets_bind, meets_part]
  cases d with
  | sequence d =>
    rw [meets_bind]
    exact meets_ofExcept_of (.inr trivial) fun sequence _ =>
      meets_within.2 (SequenceDeployer.failures_deploy access sequence d s)
  | links d =>
    rw [meets_bind]
    exact meets_ofExcept_of (.inr trivial) fun links _ =>
      meets_within.2 (LinkDeployer.failures_deploy access links d s)

end TschLearning
