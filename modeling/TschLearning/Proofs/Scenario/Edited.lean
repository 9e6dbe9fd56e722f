import TschLearning.Proofs.Network.Tame
import TschLearning.Proofs.Scenario.Tuned

/-! Stars whose devices belong to the schedulers. A scheduler edits devices through their interface
at the start of a slot, and it leaves them alone otherwise. -/

namespace TschLearning.Star

open TschLearning.Action TschLearning.Shelf SlotSelection

variable {ρ α : Type} {s t : Star ρ α} {ids : List Nat} {R : Mac Nat → Mac Nat → Prop}

/-- Devices have changed as the relation says since the state `s`, whatever the scheduler. -/
def Since (ids : List Nat) (R : Mac Nat → Mac Nat → Prop) (s : Star ρ α)
    (_ : SlotSelection Nat α) (p : ρ × Star ρ α) : Prop :=
  shelf.Altered ids R s p.2

theorem alters_macAccess (ids : List Nat) :
    (macAccess : MacAccess Nat (Star ρ α)).Alters shelf ids Mac.Edits :=
  Mac.alters_access lawful_shelf _ ids

variable [Generator ρ α] [Arith α]

omit [Arith α] in
theorem blind_since (ids : List Nat) (R : Mac Nat → Mac Nat → Prop) (s : Star ρ α) :
    Blind True needs (Since ids R s) where
  kin h _ := h
  note _ h := ⟨rfl, h⟩
  uniform h := Draws.meets_uniform _ _ fun _ _ => h

omit [Generator ρ α] [Arith α] in
theorem keeps_outside {x : Action (Star ρ α) Unit} (h : shelf.Alters ids Mac.Edits x)
    (s : Star ρ α) : Keeps (fun p : ρ × Star ρ α => True ∧ shelf.Altered ids Mac.Edits s p.2)
      (fun _ => True) x.outside :=
  (h.keeps Mac.edits_trans s).outside (T := fun _ => True)

theorem moves_since (ids : List Nat) (s : Star ρ α) :
    Blind.Moves True needs (Since ids Mac.Edits s) (Since ids Mac.Edits s) := by
  rintro a ⟨g, t⟩ slot ht -
  have hedit : ∀ m ∈ a.deployer.macs, ∀ e,
      Keeps (fun p : ρ × Star ρ α => True ∧ shelf.Altered ids Mac.Edits s p.2) (fun _ => True)
        (LinkDeployer.edit (needs (ρ := ρ) (α := α)).macs m e) := by
    intro m _ e
    cases e with
    | delete slot channel => exact keeps_outside ((alters_macAccess ids).deleteLink m slot) s
    | add slot channel => exact keeps_outside ((alters_macAccess ids).addLink m slot channel) s
  unfold move
  simp only [meets_bind, meets_part]
  refine meets_ofExcept_of (.inr trivial) fun links _ => ?_
  have hdeploy := LinkDeployer.keeps_deploy (fun _ _ hp => hp) hedit links
  rw [meets_within]
  refine (hdeploy.meets (s := (a.deployer, g, t)) ⟨rfl, trivial, ht⟩).mono ?_
  rintro accepted ⟨d, h, u⟩ ⟨-, -, -, hu⟩
  cases accepted with
  | true => exact hu
  | false =>
    have hkept : Since ids Mac.Edits s { a with deployer := d } (h, u) := hu
    refine ((blind_since ids Mac.Edits s).meets_remark hkept (.slotKept a.action)).mono ?_
    exact fun _ _ hv => hv.2

omit [Arith α] in
theorem requests_since (ids : List Nat) (s : Star ρ α) :
    Blind.Requests True needs (Since ids Mac.Edits s) (Since ids Mac.Edits s) := by
  intro a p hp
  have hmacs := alters_macAccess (ρ := ρ) (α := α) ids
  have hrequest := keeps_outside (hmacs.request a.mac a.destination a.params.packetSize) s
  exact (hrequest.meets ⟨trivial, hp⟩).mono fun _ _ hq => hq.2.2

/-- The schedulers are tame: they edit devices at the start of a slot, and they do not touch them
afterwards. -/
theorem tame_surroundings (ids : List Nat) :
    (surroundings : Surroundings Nat Nat Unit (Star ρ α) α).Tame ids Mac.Edits Eq where
  lawful := lawful_shelf.part
  uniform s := ⟨_, _, rfl, fun _ _ => rfl⟩
  boundary {k asn s t} h := by
    have hblind := blind_since (ρ := ρ) (α := α) ids Mac.Edits s
    have hmeets : Meets True ((surroundings (ρ := ρ) (α := α)).boundary k asn) s fun _ u =>
        shelf.Altered ids Mac.Edits s u := by
      refine meets_inScheduler (fun a g _ => ?_) fun _ => trivial
      have hstart : Since ids Mac.Edits s { a with asn := some asn } (g, s) :=
        altered_of_get?_eq Mac.edits_refl fun _ _ => rfl
      refine (hblind.meets_onSlotBoundary hblind (fun _ => moves_since ids s)
        (fun _ => requests_since ids s) (.inr trivial) (.inr trivial) hstart).mono ?_
      rintro _ ⟨b, h, u⟩ hp
      split at hp
      · exact hp.elim id id
      · exact hp
    exact hmeets.post h
  outcome {k slot channel success s t} h := by
    have hblind := blind_since (ρ := ρ) (α := α) ids Eq s
    have hmeets : Meets True ((surroundings (ρ := ρ) (α := α)).outcome k slot channel success) s
        fun _ u => shelf.Altered ids Eq s u := by
      refine meets_inScheduler (fun a g _ => ?_) fun _ => trivial
      have hstart : Since ids Eq s (a.counting success) (g, s) :=
        altered_of_get?_eq (fun _ => rfl) fun _ _ => rfl
      exact hblind.meets_onTransmissionOutcome (.inr trivial) hstart
    exact hmeets.post h
  overheard {k slot s t} h := by
    have hblind := blind_since (ρ := ρ) (α := α) ids Eq s
    have hmeets : Meets True ((surroundings (ρ := ρ) (α := α)).overheard k slot) s
        fun _ u => shelf.Altered ids Eq s u := by
      refine meets_inScheduler (fun a g _ => ?_) fun _ => trivial
      have hstart : Since ids Eq s a (g, s) := altered_of_get?_eq (fun _ => rfl) fun _ _ => rfl
      exact hblind.meets_onOverheardActivity (.inr trivial) hstart
    exact hmeets.post h
  observe {o r s t} h := by
    have hmeets : Meets True ((surroundings (ρ := ρ) (α := α)).observe o r) s
        fun _ u => shelf.Altered ids Eq s u := by
      show Meets True (get >>= fun s => _) s _
      rw [meets_bind, meets_get, meets_bind]
      refine meets_ofExcept_of (.inr trivial) fun statistics _ => ?_
      exact altered_of_get?_eq (fun _ => rfl) fun _ _ => rfl
    exact hmeets.post h

end TschLearning.Star
