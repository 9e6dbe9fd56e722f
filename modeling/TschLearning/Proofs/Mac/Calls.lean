import TschLearning.Deployer
import TschLearning.Mac
import TschLearning.Proofs.Action.Agree
import TschLearning.Proofs.Action.Settles

/-! MAC layers whose calls are written down, each with its refusal if there was one. Writing
calls down changes nothing about what they do: a deployer works in the same way with any MAC layers
that answer alike. -/

namespace TschLearning

inductive MacRequest where
  | deleteLink (slot : Int)
  | addLink (slot channel : Int)
  | checkSequence (channels : List Int)
  | setSequence (channels : List Int)
  | frame (destination : Datum) (size : Nat)

/-- A call of a MAC layer, and the fault that answered it. -/
structure MacCall (μ : Type) where
  mac : μ
  request : MacRequest
  refusal : Option Fault

def LinkEdit.request : LinkEdit → MacRequest
  | .delete s _ => .deleteLink s
  | .add s c => .addLink s c

namespace Action

variable {σ γ : Type}

/-- The operation with an entry written down behind those before it. -/
def logged (entry : Option Fault → γ) (x : Action σ Unit) : Action (List γ × σ) Unit :=
  fun (entries, s) => match x s with
    | .ok u t => .ok u (entries ++ [entry none], t)
    | .error f t => .error f (entries ++ [entry (some f)], t)

/-- A state with entries beside it, and the state alone. -/
def Entered (p : List γ × σ) (s : σ) : Prop := p.2 = s

theorem agree_logged (entry : Option Fault → γ) (x : Action σ Unit) :
    Agree Entered Eq (logged entry x) x := by
  rintro ⟨entries, s⟩ _ rfl
  simp only [logged]
  cases x s with
  | ok u t => exact ⟨trivial, rfl⟩
  | error f t => exact ⟨rfl, rfl⟩

@[simp] theorem ends_refusal?_logged {entry : Option Fault → γ} {x : Action σ Unit}
    {entries : List γ} {s : σ} {post : Option Fault → List γ × σ → Prop} :
    Ends (refusal? (logged entry x)) (entries, s) post ↔
      Ends (refusal? x) s fun r t => post r (entries ++ [entry r], t) := by
  unfold Ends refusal? logged
  cases hx : x s with
  | ok u t => simp only [hx]
  | error f t => cases hf : f.isRefusal <;> simp [hx, hf]

@[simp] theorem settles_logged {entry : Option Fault → γ} {x : Action σ Unit}
    {entries : List γ} {s : σ} {post : Except Fault Unit → List γ × σ → Prop} :
    Settles (logged entry x) (entries, s) post ↔
      Settles x s fun r t =>
        match r with
        | .ok u => post (.ok u) (entries ++ [entry none], t)
        | .error f => post (.error f) (entries ++ [entry (some f)], t) := by
  simp only [Settles, logged]
  cases x s <;> rfl

section Notes

variable [Journal σ]

theorem agree_note_entered (n : Note) :
    Agree (Entered : List γ × σ → σ → Prop) Eq (note n) (note n) := by
  refine agree_note ?_
  rintro ⟨entries, s⟩ _ rfl
  exact ⟨rfl, rfl⟩

end Notes

end Action

namespace MacAccess

variable {μ σ : Type}

/-- MAC layers whose calls are written down. -/
def recording (access : MacAccess μ σ) : MacAccess μ (List (MacCall μ) × σ) where
  label := access.label
  deleteLink m s := Action.logged (⟨m, .deleteLink s, ·⟩) (access.deleteLink m s)
  addLink m s c := Action.logged (⟨m, .addLink s c, ·⟩) (access.addLink m s c)
  checkSequence m cs := Action.logged (⟨m, .checkSequence cs, ·⟩) (access.checkSequence m cs)
  setSequence m cs := Action.logged (⟨m, .setSequence cs, ·⟩) (access.setSequence m cs)
  request m d n := Action.logged (⟨m, .frame d n, ·⟩) (access.request m d n)

/-- MAC layers that answer alike, and go on doing so. -/
structure Alike {τ : Type} (R : σ → τ → Prop) (access : MacAccess μ σ) (access' : MacAccess μ τ) :
    Prop where
  label : access.label = access'.label
  deleteLink : ∀ m s, Action.Agree R Eq (access.deleteLink m s) (access'.deleteLink m s)
  addLink : ∀ m s c, Action.Agree R Eq (access.addLink m s c) (access'.addLink m s c)
  checkSequence : ∀ m cs,
    Action.Agree R Eq (access.checkSequence m cs) (access'.checkSequence m cs)
  setSequence : ∀ m cs, Action.Agree R Eq (access.setSequence m cs) (access'.setSequence m cs)
  request : ∀ m d n, Action.Agree R Eq (access.request m d n) (access'.request m d n)

theorem alike_recording (access : MacAccess μ σ) :
    Alike Action.Entered access.recording access where
  label := rfl
  deleteLink _ _ := Action.agree_logged _ _
  addLink _ _ _ := Action.agree_logged _ _
  checkSequence _ _ := Action.agree_logged _ _
  setSequence _ _ := Action.agree_logged _ _
  request _ _ _ := Action.agree_logged _ _

end MacAccess

theorem Mac.alike_access {κ μ σ τ : Type} [Journal σ] [Journal τ] {R : σ → τ → Prop}
    {shelf : Shelf μ (Mac κ) σ} {shelf' : Shelf μ (Mac κ) τ} (h : shelf.Alike R shelf')
    (hnote : ∀ n, Action.Agree R Eq (Action.note n : Action σ Unit) (Action.note n : Action τ Unit))
    (labels : μ → String) :
    MacAccess.Alike R (Mac.access shelf labels) (Mac.access shelf' labels) where
  label := rfl
  deleteLink i s := by
    refine (h.agree_read i).bind ?_
    rintro m _ rfl
    refine (h.agree_update i _).bind ?_
    rintro remark _ rfl
    cases remark with
    | none => exact Action.agree_pure rfl
    | some r => exact hnote _
  addLink i _ _ := h.agree_update i _
  checkSequence i _ := h.agree_update i _
  setSequence i _ := h.agree_update i _
  request i d n := h.agree_update i fun m => .ok ((), m.request d (.int n))

namespace LinkDeployer

open TschLearning.Action MacAccess

variable {μ σ τ : Type} {R : σ → τ → Prop} {access : MacAccess μ σ} {access' : MacAccess μ τ}

theorem edit_recording (access : MacAccess μ σ) (m : μ) (e : LinkEdit) :
    edit (recording access) m e = logged (⟨m, e.request, ·⟩) (edit access m e) := by
  cases e <;> rfl

theorem agree_edit (h : Alike R access access') (m : μ) (e : LinkEdit) :
    Agree R Eq (edit access m e) (edit access' m e) := by
  cases e with
  | delete s c => exact h.deleteLink m s
  | add s c => exact h.addLink m s c

theorem agree_applyAll (h : Alike R access access') (made plan : List (μ × LinkEdit)) :
    Agree R Eq (applyAll access made plan) (applyAll access' made plan) := by
  induction plan generalizing made with
  | nil => exact agree_pure rfl
  | cons p rest ih =>
    unfold applyAll
    refine (agree_edit h _ _).refusal?.bind ?_
    rintro r _ rfl
    cases r with
    | none => exact ih _
    | some why => exact agree_pure rfl

variable [Journal σ] [Journal τ]
  (hnote : ∀ n, Agree R Eq (note n : Action σ Unit) (note n : Action τ Unit))

include hnote

theorem agree_undoAll (h : Alike R access access') (made : List (μ × LinkEdit)) :
    Agree R Eq (undoAll access made) (undoAll access' made) := by
  induction made with
  | nil => exact agree_pure rfl
  | cons p rest ih =>
    unfold undoAll
    refine (agree_edit h _ _).refusal?.bind ?_
    rintro r _ rfl
    cases r with
    | none => exact ih
    | some why =>
      rw [h.label]
      exact (hnote _).bind fun _ _ _ => ih

theorem agree_deploy_of_alike (h : Alike R access access') (links : Links) :
    Agree (Beside (LinkDeployer μ) R) Eq (deploy access links) (deploy access' links) := by
  unfold deploy
  refine agree_part.bind ?_
  rintro d _ rfl
  refine (agree_applyAll h [] _).outside.bind ?_
  rintro ⟨made, refusal⟩ _ rfl
  cases refusal with
  | none =>
    refine (agree_change _).bind fun _ _ _ => ?_
    exact (hnote _).note_beside.bind fun _ _ _ => agree_pure rfl
  | some why =>
    refine (agree_undoAll hnote h made).outside.bind fun _ _ _ => ?_
    refine (agree_change _).bind fun _ _ _ => ?_
    exact (hnote _).note_beside.bind fun _ _ _ => agree_pure rfl

omit hnote [Journal τ] in
theorem agree_deploy (access : MacAccess μ σ) (links : Links) :
    Agree (Beside (LinkDeployer μ) Entered) Eq (deploy (recording access) links)
      (deploy access links) :=
  agree_deploy_of_alike agree_note_entered (alike_recording access) links

end LinkDeployer

namespace SequenceDeployer

open TschLearning.Action MacAccess

variable {μ σ τ : Type} {R : σ → τ → Prop} {access : MacAccess μ σ} {access' : MacAccess μ τ}

theorem agree_checkAll (h : Alike R access access') (channels : List Int) (todo : List μ) :
    Agree R Eq (checkAll access channels todo) (checkAll access' channels todo) := by
  induction todo with
  | nil => exact agree_pure rfl
  | cons i todo ih =>
    unfold checkAll
    refine (h.checkSequence _ _).refusal?.bind ?_
    rintro r _ rfl
    cases r with
    | none => exact ih
    | some why => exact agree_pure rfl

theorem agree_setAll (h : Alike R access access') (channels : List Int) (todo : List μ) :
    Agree R Eq (setAll access channels todo) (setAll access' channels todo) := by
  induction todo with
  | nil => exact agree_pure rfl
  | cons i todo ih =>
    unfold setAll
    refine (h.setSequence _ _).refusal?.bind ?_
    rintro r _ rfl
    cases r with
    | none =>
      refine ih.bind ?_
      rintro e _ rfl
      exact agree_pure rfl
    | some why => exact agree_pure rfl

variable [Journal σ] [Journal τ]
  (hnote : ∀ n, Agree R Eq (note n : Action σ Unit) (note n : Action τ Unit))

include hnote

theorem agree_restoreAll (h : Alike R access access') (channels : List Int) (updated : List μ) :
    Agree R Eq (restoreAll access channels updated) (restoreAll access' channels updated) := by
  induction updated with
  | nil => exact agree_pure rfl
  | cons i updated ih =>
    unfold restoreAll
    refine (h.setSequence _ _).refusal?.bind ?_
    rintro r _ rfl
    cases r with
    | none => exact ih
    | some why =>
      rw [h.label]
      exact (hnote _).bind fun _ _ _ => ih

theorem agree_rollback (h : Alike R access access') (d : SequenceDeployer μ) (updated : List μ) :
    Agree R Eq (rollback access d updated) (rollback access' d updated) := by
  unfold rollback
  cases d.last with
  | some previous => exact agree_restoreAll hnote h previous.channels updated
  | none =>
    dsimp only
    split
    · exact agree_pure rfl
    · rw [h.label]
      exact hnote _

theorem agree_giveUp (h : Alike R access access') (updated : List μ) (why : Fault) :
    Agree (Beside (SequenceDeployer μ) R) Eq (giveUp access updated why)
      (giveUp access' updated why) := by
  unfold giveUp
  refine agree_part.bind ?_
  rintro d _ rfl
  refine (agree_rollback hnote h d updated).outside.bind fun _ _ _ => ?_
  refine (agree_change _).bind fun _ _ _ => ?_
  exact (hnote _).note_beside.bind fun _ _ _ => agree_pure rfl

theorem agree_deploy_of_alike (h : Alike R access access') (sequence : HoppingSequence) :
    Agree (Beside (SequenceDeployer μ) R) Eq (deploy access sequence)
      (deploy access' sequence) := by
  unfold deploy
  refine agree_part.bind ?_
  rintro d _ rfl
  refine (agree_checkAll h sequence.channels d.macs).outside.bind ?_
  rintro r _ rfl
  cases r with
  | some why => exact agree_giveUp hnote h [] why
  | none =>
    refine (agree_setAll h sequence.channels d.macs).outside.bind ?_
    rintro ⟨updated, refusal⟩ _ rfl
    cases refusal with
    | some why => exact agree_giveUp hnote h updated why
    | none =>
      refine (agree_change _).bind fun _ _ _ => ?_
      exact (hnote _).note_beside.bind fun _ _ _ => agree_pure rfl

omit hnote [Journal τ] in
theorem agree_deploy (access : MacAccess μ σ) (sequence : HoppingSequence) :
    Agree (Beside (SequenceDeployer μ) Entered) Eq (deploy (recording access) sequence)
      (deploy access sequence) :=
  agree_deploy_of_alike agree_note_entered (alike_recording access) sequence

end SequenceDeployer

namespace Deployer

open TschLearning.Action MacAccess

variable {μ σ τ : Type} {R : σ → τ → Prop} {access : MacAccess μ σ} {access' : MacAccess μ τ}
  [Journal σ] [Journal τ]

/-- Deployers of either kind work alike with MAC layers that answer alike. -/
theorem agree_deploy_of_alike
    (hnote : ∀ n, Agree R Eq (note n : Action σ Unit) (note n : Action τ Unit))
    (h : Alike R access access') (configuration : Configuration) :
    Agree (Beside (Deployer μ) R) Eq (deploy access configuration)
      (deploy access' configuration) := by
  unfold deploy
  refine agree_part.bind ?_
  rintro d _ rfl
  cases d with
  | sequence d =>
    refine (agree_ofExcept _).bind ?_
    rintro sequence _ rfl
    exact (SequenceDeployer.agree_deploy_of_alike hnote h sequence).within
  | links d =>
    refine (agree_ofExcept _).bind ?_
    rintro links _ rfl
    exact (LinkDeployer.agree_deploy_of_alike hnote h links).within

omit [Journal τ] in
theorem agree_deployment (access : MacAccess μ σ) (configuration : Configuration) :
    Agree (Beside (Deployer μ) Entered) Eq (deploy (recording access) configuration)
      (deploy access configuration) :=
  agree_deploy_of_alike agree_note_entered (alike_recording access) configuration

end Deployer
end TschLearning
