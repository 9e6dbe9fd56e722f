import TschLearning.Proofs.Action.Meets

/-! Operations that keep an assertion, whether they end or break off. -/

namespace TschLearning.Action

variable {σ τ β γ : Type}

/-- Whatever comes of the operation, the assertion `P` still holds, and what it gives is as `R`
says. -/
def Keeps (P : σ → Prop) (R : β → Prop) (x : Action σ β) : Prop :=
  ∀ s, P s → match x s with
    | .ok b t => R b ∧ P t
    | .error _ t => P t

variable {P : σ → Prop} {R : β → Prop}

theorem Keeps.meets {x : Action σ β} (h : Keeps P R x) {s : σ} (hs : P s) :
    Meets True x s fun b t => R b ∧ P t := by
  have h := h s hs
  unfold Meets
  cases hx : x s with
  | ok b t => rwa [hx] at h
  | error f t => trivial

theorem Keeps.ends {x : Action σ β} (h : Keeps P R x) {s : σ} (hs : P s) {post : β → σ → Prop}
    (hx : Ends x s post) : Ends x s fun b t => post b t ∧ P t := by
  obtain ⟨b, t, e, hp⟩ := ends_iff.1 hx
  exact ends_iff.2 ⟨b, t, e, hp, ((h.meets hs).post e).2⟩

theorem Keeps.congr {Q : σ → Prop} {x : Action σ β} (h : Keeps P R x) (hpq : ∀ s, P s ↔ Q s) :
    Keeps Q R x := by
  obtain rfl : P = Q := funext fun s => propext (hpq s)
  exact h

theorem keeps_true (x : Action σ β) : Keeps (fun _ => True) (fun _ => True) x := by
  intro s _
  cases x s with
  | ok b t => exact ⟨trivial, trivial⟩
  | error f t => trivial

/-! ### Operations put together -/

theorem keeps_pure {b : β} (hb : R b) : Keeps P R (pure b) := fun _ hs => ⟨hb, hs⟩

theorem keeps_throw (f : Fault) : Keeps P R (throw f : Action σ β) := fun _ hs => hs

theorem keeps_ofExcept (e : Except Fault β) : Keeps P (fun _ => True) (ofExcept e) := by
  cases e with
  | ok b => exact keeps_pure trivial
  | error f => exact keeps_throw f

theorem Keeps.bind {Q : γ → Prop} {x : Action σ β} {f : β → Action σ γ} (h : Keeps P R x)
    (hf : ∀ b, R b → Keeps P Q (f b)) : Keeps P Q (x >>= f) := by
  intro s hs
  have h := h s hs
  simp only [Bind.bind, EStateM.bind]
  cases hx : x s with
  | ok b t =>
    rw [hx] at h
    exact hf b h.1 t h.2
  | error fault t => rwa [hx] at h

theorem keeps_forM {x : γ → Action σ Unit} {items : List γ}
    (h : ∀ c ∈ items, Keeps P (fun _ => True) (x c)) :
    Keeps P (fun _ => True) (items.forM x) := by
  induction items with
  | nil => exact keeps_pure trivial
  | cons c rest ih =>
    rw [List.forall_mem_cons] at h
    exact h.1.bind fun _ _ => ih h.2

theorem keeps_note [Journal σ] (hnote : ∀ (n : Note) s, P s → P (Journal.enter n s)) (n : Note) :
    Keeps P (fun _ => True) (note n) := by
  intro s hs
  unfold note
  cases Journal.obstacle? n s with
  | none => exact ⟨trivial, hnote n s hs⟩
  | some f => exact hs

theorem Keeps.refusal? {Q : Unit → Prop} {x : Action σ Unit} (h : Keeps P Q x) :
    Keeps P (fun _ => True) (refusal? x) := by
  intro s hs
  have h := h s hs
  unfold Action.refusal?
  cases hx : x s with
  | ok u t =>
    rw [hx] at h
    exact ⟨trivial, h.2⟩
  | error f t =>
    rw [hx] at h
    cases hf : f.isRefusal <;> simpa [hf] using h

/-! ### Parts of a state -/

theorem keeps_part {P : τ × σ → Prop} {Q : τ → Prop} (h : ∀ t s, P (t, s) → Q t) :
    Keeps P Q (part : Action (τ × σ) τ) := fun _ hs => ⟨h _ _ hs, hs⟩

theorem keeps_change {P : τ × σ → Prop} {f : τ → τ} (h : ∀ t s, P (t, s) → P (f t, s)) :
    Keeps P (fun _ => True) (change f : Action (τ × σ) Unit) := fun _ hs => ⟨trivial, h _ _ hs⟩

theorem Keeps.outside {T : τ → Prop} {x : Action σ β} (h : Keeps P R x) :
    Keeps (fun p => T p.1 ∧ P p.2) R (x.outside : Action (τ × σ) β) := by
  rintro ⟨t, s⟩ ⟨ht, hs⟩
  have h := h s hs
  simp only [Action.outside]
  cases hx : x s with
  | ok b u =>
    rw [hx] at h
    exact ⟨h.1, ht, h.2⟩
  | error f u =>
    rw [hx] at h
    exact ⟨ht, h⟩

theorem Keeps.aside {x : Action σ β} (h : Keeps P R x) :
    Keeps (fun p => P p.2) R (x.outside : Action (τ × σ) β) :=
  (h.outside (T := fun _ => True)).congr fun _ => and_iff_right trivial

theorem Keeps.within_of {κ : Type} {get : τ → κ} {put : κ → τ → τ} {K : κ → Prop} {T : τ → Prop}
    {x : Action (κ × σ) β} (hget : ∀ t, T t → K (get t)) (hput : ∀ k t, K k → T t → T (put k t))
    (h : Keeps (fun p => K p.1 ∧ P p.2) R x) :
    Keeps (fun p => T p.1 ∧ P p.2) R (Action.within get put x) := by
  rintro ⟨t, s⟩ ⟨ht, hs⟩
  have h := h (get t, s) ⟨hget t ht, hs⟩
  simp only [Action.within]
  cases hx : x (get t, s) with
  | ok b u =>
    rw [hx] at h
    exact ⟨h.1, hput _ _ h.2.1 ht, h.2.2⟩
  | error f u =>
    rw [hx] at h
    exact ⟨hput _ _ h.1 ht, h.2⟩

theorem Keeps.within {κ : Type} {get : τ → κ} {put : κ → τ → τ} {T : τ → Prop}
    {x : Action (κ × σ) β} (hput : ∀ k t, T t → T (put k t))
    (h : Keeps (fun p : κ × σ => P p.2) R x) :
    Keeps (fun p => T p.1 ∧ P p.2) R (Action.within get put x) :=
  Keeps.within_of (K := fun _ => True) (fun _ _ => trivial) (fun k t _ ht => hput k t ht)
    (h.congr fun _ => (and_iff_right trivial).symm)

end TschLearning.Action

namespace TschLearning.Shelf

open TschLearning.Action

variable {ι τ σ β : Type} {P : σ → Prop} (shelf : Shelf ι τ σ)

theorem keeps_read (i : ι) : Keeps P (fun _ => True) (shelf.read i) := by
  intro s hs
  unfold read
  cases shelf.get? i s with
  | none => exact hs
  | some t => exact ⟨trivial, hs⟩

theorem keeps_update {i : ι} {f : τ → Except Fault (β × τ)}
    (h : ∀ t b u s, P s → shelf.get? i s = some t → f t = .ok (b, u) → P (shelf.put i u s)) :
    Keeps P (fun _ => True) (shelf.update i f) := by
  intro s hs
  unfold update
  cases ht : shelf.get? i s with
  | none => exact hs
  | some t =>
    cases hf : f t with
    | ok r => simpa [hf] using h t r.1 r.2 s hs ht hf
    | error fault => simpa only [hf] using hs

theorem keeps_run {R : β → Prop} {i : ι} {T : τ → Prop} {x : Action (τ × σ) β}
    (hget : ∀ t s, P s → shelf.get? i s = some t → T t)
    (hput : ∀ t s, T t → P s → P (shelf.put i t s))
    (h : Keeps (fun p : τ × σ => T p.1 ∧ P p.2) R x) : Keeps P R (shelf.run i x) := by
  intro s hs
  unfold run
  cases ht : shelf.get? i s with
  | none => exact hs
  | some t =>
    have h := h (t, s) ⟨hget t s hs ht, hs⟩
    cases hx : x (t, s) with
    | ok b u =>
      rw [hx] at h
      simpa only [hx] using ⟨h.1, hput _ _ h.2.1 h.2.2⟩
    | error f u =>
      rw [hx] at h
      simpa only [hx] using hput _ _ h.1 h.2

theorem keeps_alone {i : ι} {x : Action τ β} (hput : ∀ t s, P s → P (shelf.put i t s)) :
    Keeps P (fun _ => True) (shelf.alone i x) := by
  intro s hs
  unfold alone
  cases ht : shelf.get? i s with
  | none => exact hs
  | some t =>
    cases hx : x t with
    | ok b u => simpa [hx] using hput u s hs
    | error f u => simpa only [hx] using hput u s hs

end TschLearning.Shelf
