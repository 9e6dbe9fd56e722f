import TschLearning.Proofs.Action.Keeps
import TschLearning.Proofs.Action.Settles

/-! Operations that change the parts on a shelf in a certain way, whatever comes of them. -/

namespace TschLearning.Shelf

open TschLearning.Action

variable {ι τ σ : Type}

/-- The parts under some handles are still there, changed as a relation says. -/
def Altered (shelf : Shelf ι τ σ) (ids : List ι) (R : τ → τ → Prop) (s t : σ) : Prop :=
  ∀ i ∈ ids, ∀ a, shelf.get? i s = some a → ∃ b, shelf.get? i t = some b ∧ R a b

variable {shelf : Shelf ι τ σ} {ids : List ι} {R : τ → τ → Prop} {s t u : σ}

theorem altered_of_get?_eq (hrefl : ∀ a, R a a)
    (h : ∀ i ∈ ids, shelf.get? i t = shelf.get? i s) : shelf.Altered ids R s t := by
  intro i hi a ha
  exact ⟨a, (h i hi).trans ha, hrefl a⟩

theorem Altered.mono {R' : τ → τ → Prop} (h : shelf.Altered ids R s t)
    (hw : ∀ a b, R a b → R' a b) : shelf.Altered ids R' s t := by
  intro i hi a ha
  obtain ⟨b, hb, hab⟩ := h i hi a ha
  exact ⟨b, hb, hw a b hab⟩

theorem Altered.trans (htrans : ∀ a b c, R a b → R b c → R a c) (h : shelf.Altered ids R s t)
    (h' : shelf.Altered ids R t u) : shelf.Altered ids R s u := by
  intro i hi a ha
  obtain ⟨b, hb, hab⟩ := h i hi a ha
  obtain ⟨c, hc, hbc⟩ := h' i hi b hb
  exact ⟨c, hc, htrans a b c hab hbc⟩

theorem Lawful.part [Journal σ] {ν : Type} {rest : σ → ν} (h : shelf.Lawful rest) :
    shelf.Lawful fun _ => () :=
  { h with rest_put := fun _ _ _ => rfl, rest_enter := fun _ _ => rfl }

theorem altered_put [Journal σ] {ν : Type} {rest : σ → ν} (h : shelf.Lawful rest)
    (hrefl : ∀ a, R a a) {i : ι} {a b : τ} (ha : shelf.get? i s = some a) (hab : R a b) :
    shelf.Altered ids R s (shelf.put i b s) := by
  intro j _ c hc
  by_cases hj : j = i
  · subst hj
    obtain rfl := Option.some.inj (ha.symm.trans hc)
    exact ⟨b, h.get?_put_self ha b, hab⟩
  · exact ⟨c, (h.get?_put_of_ne hj b s).trans hc, hrefl c⟩

/-- Whatever comes of the operation, the parts change as the relation says. -/
def Alters {β : Type} (shelf : Shelf ι τ σ) (ids : List ι) (R : τ → τ → Prop)
    (x : Action σ β) : Prop :=
  ∀ s, Settles x s fun _ t => shelf.Altered ids R s t

theorem Alters.mono {β : Type} {R' : τ → τ → Prop} {x : Action σ β} (h : shelf.Alters ids R x)
    (hw : ∀ a b, R a b → R' a b) : shelf.Alters ids R' x :=
  fun s => (h s).mono fun _ _ ht => ht.mono hw

/-- An operation that alters parts goes on with what was altered before. -/
theorem Alters.keeps {β : Type} (htrans : ∀ a b c, R a b → R b c → R a c) {x : Action σ β}
    (h : shelf.Alters ids R x) (s : σ) : Keeps (shelf.Altered ids R s) (fun _ => True) x := by
  intro t ht
  have h := h t
  unfold Settles at h
  cases hx : x t with
  | ok b u =>
    rw [hx] at h
    exact ⟨trivial, ht.trans htrans h⟩
  | error f u =>
    rw [hx] at h
    exact ht.trans htrans h

theorem alters_pure {β : Type} (hrefl : ∀ a, R a a) (b : β) :
    shelf.Alters ids R (pure b : Action σ β) :=
  fun _ => altered_of_get?_eq hrefl fun _ _ => rfl

theorem Alters.bind {β γ : Type} (htrans : ∀ a b c, R a b → R b c → R a c) {x : Action σ β}
    {f : β → Action σ γ} (hx : shelf.Alters ids R x) (hf : ∀ b, shelf.Alters ids R (f b)) :
    shelf.Alters ids R (x >>= f) := by
  intro s
  rw [settles_bind]
  apply (hx s).mono
  intro r t ht
  cases r with
  | ok b => exact (hf b t).mono fun _ _ hu => ht.trans htrans hu
  | error f => exact ht

theorem alters_read (hrefl : ∀ a, R a a) (i : ι) : shelf.Alters ids R (shelf.read i) := by
  intro s
  unfold Settles read
  cases shelf.get? i s <;> exact altered_of_get?_eq hrefl fun _ _ => rfl

theorem alters_note [Journal σ] {ν : Type} {rest : σ → ν} (h : shelf.Lawful rest)
    (hrefl : ∀ a, R a a) (n : Note) : shelf.Alters ids R (note n) := by
  intro s
  rw [settles_note, h.obstacle?_eq_none]
  exact altered_of_get?_eq hrefl fun i _ => h.get?_enter i n s

theorem alters_update [Journal σ] {ν β : Type} {rest : σ → ν} (h : shelf.Lawful rest)
    (hrefl : ∀ a, R a a) (i : ι) {f : τ → Except Fault (β × τ)}
    (hf : ∀ a b a', f a = .ok (b, a') → R a a') : shelf.Alters ids R (shelf.update i f) := by
  intro s
  cases ha : shelf.get? i s with
  | none =>
    unfold Settles update
    rw [ha]
    exact altered_of_get?_eq hrefl fun _ _ => rfl
  | some a =>
    rw [settles_update _ ha]
    cases hfa : f a with
    | ok r => exact altered_put h hrefl ha (hf a r.1 r.2 hfa)
    | error fault => exact altered_of_get?_eq hrefl fun _ _ => rfl

end TschLearning.Shelf
