import TschLearning.Journal

/-! Total correctness of operations. `Ends x s post` says that the operation `x`, started in
the state `s`, ends without a fault and that `post` holds of what it gives and of the state
that it leaves. Every way of putting operations together has one rule, an equivalence, so that
a goal about an operation turns into a goal about its parts. -/

namespace TschLearning.Action

variable {σ τ κ β γ : Type}

/-- The operation ends without a fault, and the postcondition holds at its end. -/
def Ends (x : Action σ β) (s : σ) (post : β → σ → Prop) : Prop :=
  match x s with
  | .ok b t => post b t
  | .error _ _ => False

/-- An operation at hand can be run to see what holds at its end. -/
instance {x : Action σ β} {s : σ} {post : β → σ → Prop} [∀ b t, Decidable (post b t)] :
    Decidable (Ends x s post) :=
  show Decidable (match x s with
    | .ok b t => post b t
    | .error _ _ => False) from
  match x s with
  | .ok b t => inferInstanceAs (Decidable (post b t))
  | .error _ _ => inferInstanceAs (Decidable False)

theorem ends_iff {x : Action σ β} {s : σ} {post : β → σ → Prop} :
    Ends x s post ↔ ∃ b t, x s = .ok b t ∧ post b t := by
  unfold Ends
  cases x s with
  | ok b t => exact ⟨fun h => ⟨b, t, rfl, h⟩, fun ⟨_, _, e, h⟩ => by cases e; exact h⟩
  | error f t => exact ⟨False.elim, fun ⟨_, _, e, _⟩ => by cases e⟩

theorem Ends.mono {x : Action σ β} {s : σ} {post weaker : β → σ → Prop} (h : Ends x s post)
    (hw : ∀ b t, post b t → weaker b t) : Ends x s weaker := by
  obtain ⟨b, t, e, hp⟩ := ends_iff.1 h
  exact ends_iff.2 ⟨b, t, e, hw b t hp⟩

/-! ### Operations put together -/

@[simp] theorem ends_pure {b : β} {s : σ} {post : β → σ → Prop} :
    Ends (pure b) s post ↔ post b s := Iff.rfl

@[simp] theorem ends_bind {x : Action σ β} {f : β → Action σ γ} {s : σ} {post : γ → σ → Prop} :
    Ends (x >>= f) s post ↔ Ends x s fun b t => Ends (f b) t post := by
  simp only [Ends, bind, EStateM.bind]
  cases x s <;> rfl

@[simp] theorem ends_map {x : Action σ β} {f : β → γ} {s : σ} {post : γ → σ → Prop} :
    Ends (f <$> x) s post ↔ Ends x s fun b t => post (f b) t := by
  simp only [Ends, Functor.map, EStateM.map]
  cases x s <;> rfl

@[simp] theorem ends_throw {f : Fault} {s : σ} {post : β → σ → Prop} :
    Ends (throw f : Action σ β) s post ↔ False := Iff.rfl

@[simp] theorem ends_ofExcept {e : Except Fault β} {s : σ} {post : β → σ → Prop} :
    Ends (ofExcept e) s post ↔ ∃ b, e = .ok b ∧ post b s := by
  cases e with
  | ok b => simp [ofExcept]
  | error f => simp [ofExcept]

@[simp] theorem ends_get {s : σ} {post : σ → σ → Prop} :
    Ends (get : Action σ σ) s post ↔ post s s := Iff.rfl

@[simp] theorem ends_modify {f : σ → σ} {s : σ} {post : Unit → σ → Prop} :
    Ends (modify f : Action σ Unit) s post ↔ post () (f s) := Iff.rfl

@[simp] theorem ends_note [Journal σ] {n : Note} {s : σ} {post : Unit → σ → Prop} :
    Ends (note n) s post ↔ Journal.obstacle? n s = none ∧ post () (Journal.enter n s) := by
  unfold Ends note
  cases Journal.obstacle? n s <;> simp

/-- An operation that may be refused takes effect, or it is refused and leaves what its
refusal leaves. -/
theorem ends_refusal? {x : Action σ Unit} {s : σ} {post : Option Fault → σ → Prop} :
    Ends (refusal? x) s post ↔
      Ends x s (fun _ => post none) ∨
        ∃ f t, x s = .error f t ∧ f.isRefusal = true ∧ post (some f) t := by
  unfold Ends refusal?
  cases x s with
  | ok u t => simp
  | error f t => cases hf : f.isRefusal <;> grind

/-! ### Parts of a state -/

@[simp] theorem ends_part {t : τ} {s : σ} {post : τ → τ × σ → Prop} :
    Ends (part : Action (τ × σ) τ) (t, s) post ↔ post t (t, s) := Iff.rfl

@[simp] theorem ends_change {f : τ → τ} {t : τ} {s : σ} {post : Unit → τ × σ → Prop} :
    Ends (change f : Action (τ × σ) Unit) (t, s) post ↔ post () (f t, s) := Iff.rfl

@[simp] theorem ends_outside {x : Action σ β} {t : τ} {s : σ} {post : β → τ × σ → Prop} :
    Ends (x.outside : Action (τ × σ) β) (t, s) post ↔ Ends x s fun b u => post b (t, u) := by
  simp only [Ends, outside]
  cases x s <;> rfl

@[simp] theorem ends_within {get : τ → κ} {put : κ → τ → τ} {x : Action (κ × σ) β} {t : τ} {s : σ}
    {post : β → τ × σ → Prop} :
    Ends (within get put x) (t, s) post ↔
      Ends x (get t, s) fun b u => post b (put u.1 t, u.2) := by
  simp only [Ends, within]
  cases x (get t, s) <;> rfl

@[simp] theorem ends_beside {get : σ → τ} {put : τ → σ → σ} {x : Action (τ × σ) β} {s : σ}
    {post : β → σ → Prop} :
    Ends (beside get put x) s post ↔ Ends x (get s, s) fun b u => post b (put u.1 u.2) := by
  simp only [Ends, beside]
  cases x (get s, s) <;> rfl

end TschLearning.Action
