import TschLearning.Proofs.Action.Settles

/-! Operations that break off only with an excuse. `EndsOr excuse x s post` says that `post` holds
at the end of the operation `x` started in the state `s`, unless `x` breaks off in a state that
excuses it. -/

namespace TschLearning.Action

variable {σ τ β γ : Type} {excuse : σ → Prop} {s : σ}

/-- The postcondition holds at the end of the operation, or it breaks off with an excuse. -/
def EndsOr (excuse : σ → Prop) (x : Action σ β) (s : σ) (post : β → σ → Prop) : Prop :=
  Settles x s fun r t =>
    match r with
    | .ok b => post b t
    | .error _ => excuse t

theorem Ends.endsOr {x : Action σ β} {post : β → σ → Prop} (h : Ends x s post) :
    EndsOr excuse x s post :=
  settles_of_ends h

theorem EndsOr.mono {x : Action σ β} {post weaker : β → σ → Prop} (h : EndsOr excuse x s post)
    (hw : ∀ b t, post b t → weaker b t) : EndsOr excuse x s weaker := by
  apply Settles.mono h
  intro r t hp
  cases r with
  | ok b => exact hw b t hp
  | error f => exact hp

theorem EndsOr.ran {x : Action σ β} {post : β → σ → Prop} (h : EndsOr excuse x s post) :
    EndsOr excuse x s fun b t => post b t ∧ x s = .ok b t := by
  unfold EndsOr Settles at h ⊢
  cases hx : x s with
  | ok b t => simpa only [hx, and_true] using h
  | error f t => simpa only [hx] using h

theorem EndsOr.ends {x : Action σ β} {post : β → σ → Prop} (h : EndsOr excuse x s post)
    (hx : Ends x s fun _ _ => True) : Ends x s post := by
  obtain ⟨b, t, e, -⟩ := ends_iff.1 hx
  unfold EndsOr Settles at h
  rw [e] at h
  exact ends_iff.2 ⟨b, t, e, h⟩

/-! ### Operations put together -/

@[simp] theorem endsOr_bind {x : Action σ β} {f : β → Action σ γ} {post : γ → σ → Prop} :
    EndsOr excuse (x >>= f) s post ↔
      EndsOr excuse x s fun b t => EndsOr excuse (f b) t post := by
  simp only [EndsOr, Settles, bind, EStateM.bind]
  cases x s <;> rfl

@[simp] theorem endsOr_part {excuse : τ × σ → Prop} {t : τ} {post : τ → τ × σ → Prop} :
    EndsOr excuse (part : Action (τ × σ) τ) (t, s) post ↔ post t (t, s) := Iff.rfl

@[simp] theorem endsOr_outside {x : Action σ β} {t : τ} {post : β → τ × σ → Prop} :
    EndsOr (fun p => excuse p.2) (x.outside : Action (τ × σ) β) (t, s) post ↔
      EndsOr excuse x s fun b u => post b (t, u) := by
  simp only [EndsOr, Settles, outside]
  cases x s <;> rfl

end TschLearning.Action
