import TschLearning.Mac
import TschLearning.Proofs.Action.Store

/-! Devices on a shelf as they are seen from beside their surroundings. -/

namespace TschLearning

variable {κ τ σ β γ : Type}

namespace Action

theorem outside_bind (x : Action σ β) (f : β → Action σ γ) :
    (x >>= f).outside = (x.outside >>= fun b => (f b).outside : Action (τ × σ) γ) := by
  funext ⟨t, s⟩
  simp only [outside, bind, EStateM.bind]
  cases x s <;> rfl

theorem outside_note [Journal σ] (n : Note) :
    (note n : Action σ Unit).outside = (note n : Action (τ × σ) Unit) := by
  funext ⟨t, s⟩
  have hobstacle : Journal.obstacle? n (t, s) = Journal.obstacle? n s := rfl
  simp only [outside, note, hobstacle]
  cases Journal.obstacle? n s <;> rfl

end Action

namespace Shelf

variable {ι ν : Type}

/-- A shelf in the surroundings of something. -/
def outside (shelf : Shelf ι τ σ) : Shelf ι τ (κ × σ) where
  get? i p := shelf.get? i p.2
  put i t p := (p.1, shelf.put i t p.2)

theorem outside_read (shelf : Shelf ι τ σ) (i : ι) :
    (shelf.read i).outside = (shelf.outside.read i : Action (κ × σ) τ) := by
  funext ⟨k, s⟩
  simp only [Action.outside, read, outside]
  cases shelf.get? i s <;> rfl

theorem outside_update (shelf : Shelf ι τ σ) (i : ι) (f : τ → Except Fault (β × τ)) :
    (shelf.update i f).outside = (shelf.outside.update i f : Action (κ × σ) β) := by
  funext ⟨k, s⟩
  simp only [Action.outside, update, outside]
  cases shelf.get? i s with
  | none => rfl
  | some t =>
    simp only
    cases f t <;> rfl

theorem Lawful.outside [Journal σ] {shelf : Shelf ι τ σ} {rest : σ → ν} (h : shelf.Lawful rest) :
    (shelf.outside : Shelf ι τ (κ × σ)).Lawful fun p => (p.1, rest p.2) where
  get?_put_self hget u := h.get?_put_self hget u
  get?_put_of_ne hne u p := h.get?_put_of_ne hne u p.2
  get?_enter i n p := h.get?_enter i n p.2
  rest_put i u p := congrArg (p.1, ·) (h.rest_put i u p.2)
  rest_enter n p := congrArg (p.1, ·) (h.rest_enter n p.2)
  obstacle?_eq_none n p := h.obstacle?_eq_none n p.2

end Shelf

/-- It makes no difference whether devices are made accessible before or after something comes
beside them. -/
theorem Mac.outside_access {μ : Type} [Journal σ] (shelf : Shelf μ (Mac κ) σ)
    (labels : μ → String) :
    (Mac.access shelf labels).outside
      = (Mac.access shelf.outside labels : MacAccess μ (τ × σ)) := by
  simp only [MacAccess.outside, Mac.access, Shelf.outside_update, Action.outside_bind,
    Shelf.outside_read]
  congr 1
  funext i slot
  congr 1
  funext mac
  congr 1
  funext remark
  cases remark with
  | none => rfl
  | some r => exact Action.outside_note _

end TschLearning
