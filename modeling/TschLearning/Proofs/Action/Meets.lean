import TschLearning.Proofs.Action.Ends

/-! Operations that meet a postcondition whenever they end. `Meets lenient x s post` says that
`post` holds at the end of the operation `x` started in the state `s`, and that `x` breaks off with
a fault only if `lenient` holds. With `False` in its place this is total correctness, with `True`
partial correctness, and what is proved for any `lenient` holds for both. -/

namespace TschLearning.Action

variable {σ τ κ β γ : Type} {lenient : Prop}

/-- The postcondition holds at the end of the operation, which breaks off only if that is let
pass. -/
def Meets (lenient : Prop) (x : Action σ β) (s : σ) (post : β → σ → Prop) : Prop :=
  match x s with
  | .ok b t => post b t
  | .error _ _ => lenient

theorem meets_false {x : Action σ β} {s : σ} {post : β → σ → Prop} :
    Meets False x s post ↔ Ends x s post := Iff.rfl

theorem Ends.meets {x : Action σ β} {s : σ} {post : β → σ → Prop} (h : Ends x s post) :
    Meets lenient x s post := by
  obtain ⟨b, t, e, hp⟩ := ends_iff.1 h
  unfold Meets
  rwa [e]

theorem Meets.mono {x : Action σ β} {s : σ} {post weaker : β → σ → Prop}
    (h : Meets lenient x s post) (hw : ∀ b t, post b t → weaker b t) :
    Meets lenient x s weaker := by
  unfold Meets at h ⊢
  cases hx : x s with
  | ok b t => rw [hx] at h; exact hw b t h
  | error f t => rw [hx] at h; exact h

theorem Ends.and_meets {x : Action σ β} {s : σ} {post post' : β → σ → Prop} (h : Ends x s post)
    (h' : Meets lenient x s post') : Ends x s fun b t => post b t ∧ post' b t := by
  obtain ⟨b, t, e, hp⟩ := ends_iff.1 h
  unfold Meets at h'
  rw [e] at h'
  exact ends_iff.2 ⟨b, t, e, hp, h'⟩

theorem Meets.post {x : Action σ β} {s t : σ} {b : β} {post : β → σ → Prop}
    (h : Meets lenient x s post) (hx : x s = .ok b t) : post b t := by
  unfold Meets at h
  rwa [hx] at h

/-! ### Operations put together -/

@[simp] theorem meets_pure {b : β} {s : σ} {post : β → σ → Prop} :
    Meets lenient (pure b) s post ↔ post b s := Iff.rfl

@[simp] theorem meets_bind {x : Action σ β} {f : β → Action σ γ} {s : σ} {post : γ → σ → Prop} :
    Meets lenient (x >>= f) s post ↔ Meets lenient x s fun b t => Meets lenient (f b) t post := by
  simp only [Meets, bind, EStateM.bind]
  cases x s <;> rfl

@[simp] theorem meets_throw {f : Fault} {s : σ} {post : β → σ → Prop} :
    Meets lenient (throw f : Action σ β) s post ↔ lenient := Iff.rfl

@[simp] theorem meets_ofExcept {e : Except Fault β} {s : σ} {post : β → σ → Prop} :
    Meets lenient (ofExcept e) s post ↔
      (∀ b, e = .ok b → post b s) ∧ ((∃ f, e = .error f) → lenient) := by
  cases e with
  | ok b => simp [ofExcept]
  | error f => simp [ofExcept]

theorem meets_ofExcept_of {e : Except Fault β} {s : σ} {post : β → σ → Prop}
    (he : (∃ b, e = .ok b) ∨ lenient) (hok : ∀ b, e = .ok b → post b s) :
    Meets lenient (ofExcept e) s post := by
  refine meets_ofExcept.2 ⟨hok, fun ⟨f, hf⟩ => he.elim (fun ⟨b, hb⟩ => ?_) id⟩
  rw [hf] at hb
  cases hb

theorem meets_ofExcept_of_eq_ok {e : Except Fault β} {b : β} (he : e = .ok b) {s : σ}
    {post : β → σ → Prop} : Meets lenient (ofExcept e) s post ↔ post b s := by
  rw [he]
  exact Iff.rfl

@[simp] theorem meets_get {s : σ} {post : σ → σ → Prop} :
    Meets lenient (get : Action σ σ) s post ↔ post s s := Iff.rfl

theorem meets_note [Journal σ] {n : Note} {s : σ} {post : Unit → σ → Prop}
    (h : Journal.obstacle? n s = none) :
    Meets lenient (note n) s post ↔ post () (Journal.enter n s) := by
  unfold Meets note
  rw [h]

theorem meets_note_of_post [Journal σ] {n : Note} {s : σ} {post : Unit → σ → Prop}
    (h : post () (Journal.enter n s)) : Meets True (note n) s post := by
  unfold Meets note
  cases Journal.obstacle? n s with
  | none => exact h
  | some f => trivial

theorem meets_of_forall {x : Action σ β} {s : σ} {post : β → σ → Prop} (h : ∀ b t, post b t) :
    Meets True x s post := by
  unfold Meets
  cases x s with
  | ok b t => exact h b t
  | error f t => trivial

/-! ### Parts of a state -/

@[simp] theorem meets_part {t : τ} {s : σ} {post : τ → τ × σ → Prop} :
    Meets lenient (part : Action (τ × σ) τ) (t, s) post ↔ post t (t, s) := Iff.rfl

@[simp] theorem meets_change {f : τ → τ} {t : τ} {s : σ} {post : Unit → τ × σ → Prop} :
    Meets lenient (change f : Action (τ × σ) Unit) (t, s) post ↔ post () (f t, s) := Iff.rfl

@[simp] theorem meets_outside {x : Action σ β} {t : τ} {s : σ} {post : β → τ × σ → Prop} :
    Meets lenient (x.outside : Action (τ × σ) β) (t, s) post ↔
      Meets lenient x s fun b u => post b (t, u) := by
  simp only [Meets, outside]
  cases x s <;> rfl

@[simp] theorem meets_within {get : τ → κ} {put : κ → τ → τ} {x : Action (κ × σ) β} {t : τ} {s : σ}
    {post : β → τ × σ → Prop} :
    Meets lenient (within get put x) (t, s) post ↔
      Meets lenient x (get t, s) fun b u => post b (put u.1 t, u.2) := by
  simp only [Meets, within]
  cases x (get t, s) <;> rfl

end TschLearning.Action

namespace TschLearning.Shelf

open TschLearning.Action

variable {ι τ σ β : Type} {lenient : Prop} (shelf : Shelf ι τ σ)

theorem meets_read {i : ι} {s : σ} {post : τ → σ → Prop}
    (hsome : ∀ t, shelf.get? i s = some t → post t s)
    (hnone : shelf.get? i s = none → lenient) : Meets lenient (shelf.read i) s post := by
  unfold Meets read
  cases h : shelf.get? i s with
  | none => exact hnone h
  | some t => exact hsome t h

theorem meets_update {i : ι} {f : τ → Except Fault (β × τ)} {s : σ} {post : β → σ → Prop}
    (hok : ∀ t b u, shelf.get? i s = some t → f t = .ok (b, u) → post b (shelf.put i u s))
    (hnone : shelf.get? i s = none → lenient)
    (herror : ∀ t fault, shelf.get? i s = some t → f t = .error fault → lenient) :
    Meets lenient (shelf.update i f) s post := by
  unfold Meets update
  cases h : shelf.get? i s with
  | none => exact hnone h
  | some t =>
    cases hf : f t with
    | ok r => simpa only [hf] using hok t r.1 r.2 h hf
    | error fault => simpa only [hf] using herror t fault h hf

theorem meets_run {i : ι} {x : Action (τ × σ) β} {s : σ} {post : β → σ → Prop}
    (hsome : ∀ t, shelf.get? i s = some t →
      Meets lenient x (t, s) fun b u => post b (shelf.put i u.1 u.2))
    (hnone : shelf.get? i s = none → lenient) : Meets lenient (shelf.run i x) s post := by
  unfold Meets run
  cases h : shelf.get? i s with
  | none => exact hnone h
  | some t =>
    have hx := hsome t h
    unfold Meets at hx
    cases hxs : x (t, s) with
    | ok b u => simpa only [hxs] using hx
    | error f u => simpa only [hxs] using hx

end TschLearning.Shelf
