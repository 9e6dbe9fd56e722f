import TschLearning.Proofs.Action.Altered
import TschLearning.Proofs.Mac.WellFormed

/-! The interface of simulated MAC layers. Whatever comes of its calls, a device changes by edits
alone, and so it does in every operation that is put together from them. -/

namespace TschLearning

/-- A device is edited through its interface. -/
def Mac.Edits {κ : Type} (m m' : Mac κ) : Prop := ∃ frames, m.Edited frames m'

namespace Mac

variable {κ : Type}

theorem edits_refl (m : Mac κ) : m.Edits m := ⟨[], .refl⟩

theorem edits_trans (m m' m'' : Mac κ) : m.Edits m' → m'.Edits m'' → m.Edits m'' :=
  fun ⟨_, h⟩ ⟨_, h'⟩ => ⟨_, h.trans h'⟩

end Mac

/-- Whatever comes of the calls of MAC layers, devices change as the relation says. -/
structure MacAccess.Alters {μ τ σ : Type} (access : MacAccess μ σ) (shelf : Shelf μ τ σ)
    (ids : List μ) (R : τ → τ → Prop) : Prop where
  deleteLink : ∀ i slot, shelf.Alters ids R (access.deleteLink i slot)
  addLink : ∀ i slot channel, shelf.Alters ids R (access.addLink i slot channel)
  checkSequence : ∀ i channels, shelf.Alters ids R (access.checkSequence i channels)
  setSequence : ∀ i channels, shelf.Alters ids R (access.setSequence i channels)
  request : ∀ i destination size, shelf.Alters ids R (access.request i destination size)

open TschLearning.Shelf in
theorem Mac.alters_access {μ κ σ ν : Type} [Journal σ] {shelf : Shelf μ (Mac κ) σ}
    {rest : σ → ν} (h : shelf.Lawful rest) (labels : μ → String) (ids : List μ) :
    (Mac.access shelf labels).Alters shelf ids Edits where
  deleteLink i slot := by
    apply (alters_read edits_refl i).bind edits_trans
    intro m
    apply (alters_update h edits_refl i ?_).bind edits_trans
    · intro remark
      cases remark with
      | none => exact alters_pure edits_refl ()
      | some r => exact alters_note h edits_refl _
    · intro m remark m' he
      exact ⟨_, Edited.refl.deleteLink he⟩
  addLink i slot channel := by
    apply alters_update h edits_refl i
    intro m _ m' he
    obtain ⟨m'', hadd, he⟩ := bind_eq_ok.1 he
    cases he
    exact ⟨_, Edited.refl.addLink hadd⟩
  checkSequence i channels := by
    apply alters_update h edits_refl i
    intro m _ m' he
    obtain ⟨_, -, he⟩ := bind_eq_ok.1 he
    cases he
    exact edits_refl m
  setSequence i channels := by
    apply alters_update h edits_refl i
    intro m _ m' he
    obtain ⟨m'', hset, he⟩ := bind_eq_ok.1 he
    cases he
    exact ⟨_, Edited.refl.setSequence hset⟩
  request i destination size := by
    show shelf.Alters ids Edits
      (shelf.update i fun m => .ok ((), m.request destination (.int size)))
    apply alters_update h edits_refl i
    intro m _ m' he
    cases he
    exact ⟨_, Edited.refl.request destination (.int size)⟩

end TschLearning
