import TschLearning.Activation
import TschLearning.Journal

/-! Slotframe boundaries that pass while a scheduler settles. -/

namespace TschLearning.Settling

variable {σ : Type} [Journal σ]

/-- Lets a slotframe boundary pass; gives whether it opened the gate. `sender` is the
component that the entries are about. -/
def epochPassed (sender : Activation → String) : Action (Activation × σ) Bool := do
  if (← Action.part).active then return false
  Action.change Activation.counted
  let a ← Action.part
  Action.note (.ofComponent .activation (sender a) (.settling a.count a.threshold))
  if !a.isDue then return false
  Action.change Activation.opened
  Action.note (.ofComponent .activation (sender (← Action.part)) .activated)
  return true

/-- A boundary that passes advances the gate, and tells whether that opened it. -/
theorem eq_advance_of_epochPassed_eq_ok {sender : Activation → String} {a b : Activation}
    {s t : σ} {opens : Bool} (h : epochPassed sender (a, s) = .ok opens (b, t)) :
    b = a.advance ∧ opens = (!a.active && b.active) := by
  unfold epochPassed at h
  simp only [bind, EStateM.bind, Action.part] at h
  unfold Activation.advance
  cases ha : a.active <;> simp only [ha, Bool.false_eq_true, if_false, if_true] at h ⊢
  · simp only [EStateM.bind, Action.change, Action.part] at h
    split at h
    · rename_i p h₁
      obtain ⟨c, s₁⟩ := p
      obtain rfl := Action.eq_of_note_eq_ok h₁
      cases hd : a.counted.isDue <;>
        simp only [hd, Bool.not_true, Bool.not_false, if_false, if_true, Bool.false_eq_true] at h ⊢
      · cases h
        simp [Activation.counted, ha]
      · simp only [EStateM.bind, Action.change, Action.part] at h
        split at h
        · rename_i h₂
          cases h
          obtain rfl := Action.eq_of_note_eq_ok h₂
          exact ⟨rfl, rfl⟩
        · cases h
    · cases h
  · cases h
    exact ⟨rfl, rfl⟩

end TschLearning.Settling
