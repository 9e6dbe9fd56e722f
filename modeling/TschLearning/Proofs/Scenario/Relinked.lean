import TschLearning.Proofs.Deployer.Frame
import TschLearning.Proofs.Scheduler.Slots
import TschLearning.Scenario.SlotSelection

/-! Stars of devices as their schedulers see and change them. A scheduler moves links, enqueues
frames at its own device and makes notes; all the rest of a star stays as it is. -/

namespace TschLearning

/-- The same draws, whoever asks. -/
theorem Draws.meets_uniform {ρ σ α : Type} [Generator ρ α] {lenient : Prop} (get : σ → ρ)
    (put : ρ → σ → σ) {s : σ} {post : α → σ → Prop}
    (h : ∀ u g, post u (put g s)) : Action.Meets lenient (ofGenerator get put).uniform s post :=
  h _ _

namespace Star

open TschLearning.Action

variable {ρ α : Type} {s t u : Star ρ α}

/-- The devices as they were apart from their links, and the rest apart from the journal. -/
structure Relinked (s t : Star ρ α) : Prop where
  schedulers_eq : t.schedulers = s.schedulers
  source_eq : t.source = s.source
  statistics_eq : t.statistics = s.statistics
  devices_eq : ∀ m : Nat, t.macs[m]?.map (·.withLinks .empty) = s.macs[m]?.map (·.withLinks .empty)

namespace Relinked

theorem refl (s : Star ρ α) : Relinked s s := ⟨rfl, rfl, rfl, fun _ => rfl⟩

theorem enter (h : Relinked s t) (n : Note) : Relinked s (Journal.enter n t) := { h with }

theorem put (h : Relinked s t) {m : Nat} {mac : Mac Nat} (hmac : t.macs[m]? = some mac)
    (l : Links) : Relinked s (shelf.put m (mac.withLinks l) t) where
  schedulers_eq := h.schedulers_eq
  source_eq := h.source_eq
  statistics_eq := h.statistics_eq
  devices_eq i := by
    rw [← h.devices_eq i]
    show (t.macs.setIfInBounds m _)[i]?.map _ = _
    by_cases hi : i = m
    · subst hi
      rw [Array.getElem?_setIfInBounds_self_of_lt (Array.getElem?_eq_some_iff.1 hmac).1, hmac]
      rfl
    · rw [Array.getElem?_setIfInBounds_ne (Ne.symm hi)]

/-- A device is there as it was, but for its links. -/
theorem exists_of_eq_some (h : Relinked s t) {m : Nat} {mac : Mac Nat}
    (hmac : s.macs[m]? = some mac) : ∃ l, t.macs[m]? = some (mac.withLinks l) := by
  have he := h.devices_eq m
  rw [hmac, Option.map_some, Option.map_eq_some_iff] at he
  obtain ⟨mac', hmac', he⟩ := he
  refine ⟨mac'.links, ?_⟩
  rw [hmac', ← Mac.withLinks_withLinks mac .empty, ← he, Mac.withLinks_withLinks,
    Mac.withLinks_links]

theorem symm (h : Relinked s t) : Relinked t s :=
  ⟨h.schedulers_eq.symm, h.source_eq.symm, h.statistics_eq.symm, fun m => (h.devices_eq m).symm⟩

end Relinked

/-! ### Running a scheduler -/

variable [Generator ρ α] [Arith α] {lenient : Prop}

omit [Generator ρ α] [Arith α] in
/-- An operation of the scheduler at a position, which keeps its place meanwhile. -/
theorem meets_inScheduler {β : Type} {k : Nat} {x : Action (SlotSelection Nat α × ρ × Star ρ α) β}
    {post : β → Star ρ α → Prop}
    (hsome : ∀ a g, s.schedulers[k]? = some (a, g) → Meets lenient x (a, g, s) fun b p =>
      post b (schedulerShelf.put k (p.1, p.2.1) p.2.2))
    (hnone : s.schedulers[k]? = none → lenient) : Meets lenient (inScheduler k x) s post := by
  refine schedulerShelf.meets_run ?_ hnone
  rintro ⟨a, g⟩ hk
  have hx := hsome a g hk
  unfold Meets at hx ⊢
  dsimp only
  cases hrun : x (a, g, s) with
  | ok b p => rwa [hrun] at hx
  | error f p => rwa [hrun] at hx

omit [Arith α] in
/-- A deployment of a scheduler keeps what other links of its devices cannot change. -/
theorem keeps_deploy {P : Star ρ α → Prop} (macs : List Nat)
    (hnote : ∀ (n : Note) s, P s → P (Journal.enter n s))
    (hput : ∀ m ∈ macs, ∀ mac l s, P s → s.macs[m]? = some mac →
      P (shelf.put m (mac.withLinks l) s)) (g : ρ) (links : Links) :
    Keeps (fun p => p.1.macs = macs ∧ p.2.1 = g ∧ P p.2.2) (fun _ => True)
      (LinkDeployer.deploy (needs (ρ := ρ) (α := α)).macs links) := by
  refine LinkDeployer.keeps_deploy (P := fun p : ρ × Star ρ α => p.1 = g ∧ P p.2)
    (fun n p hp => ⟨hp.1, hnote n p.2 hp.2⟩) (fun m hm e => ?_) links
  have hedit := LinkDeployer.keeps_edit shelf (fun i => Mac.labelOf (.text (senderName i))) hnote
    (hput m hm) e
  cases e with
  | delete slot channel => exact hedit.outside (T := (· = g))
  | add slot channel => exact hedit.outside (T := (· = g))

end Star
end TschLearning
