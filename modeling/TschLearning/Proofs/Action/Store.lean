import TschLearning.Proofs.Action.Ends

/-! Shelves that work as stores: what is put under a handle is found under it, and neither
other handles nor the journal get in the way. -/

namespace TschLearning.Shelf

open TschLearning.Action

variable {ι τ σ β ν : Type}

/-- The laws of a store; `rest` is what a state holds beside the parts on the shelf. -/
structure Lawful [Journal σ] (shelf : Shelf ι τ σ) (rest : σ → ν) : Prop where
  get?_put_self : ∀ {i t s}, shelf.get? i s = some t → ∀ u, shelf.get? i (shelf.put i u s) = some u
  get?_put_of_ne : ∀ {i j}, j ≠ i → ∀ u s, shelf.get? j (shelf.put i u s) = shelf.get? j s
  get?_enter : ∀ i n s, shelf.get? i (Journal.enter n s) = shelf.get? i s
  rest_put : ∀ i u s, rest (shelf.put i u s) = rest s
  rest_enter : ∀ n (s : σ), rest (Journal.enter n s) = rest s
  obstacle?_eq_none : ∀ n (s : σ), Journal.obstacle? n s = none

variable (shelf : Shelf ι τ σ)

@[simp] theorem ends_read {i : ι} {s : σ} {post : τ → σ → Prop} :
    Ends (shelf.read i) s post ↔ ∃ t, shelf.get? i s = some t ∧ post t s := by
  unfold Ends read
  cases shelf.get? i s <;> simp

@[simp] theorem ends_update {i : ι} {f : τ → Except Fault (β × τ)} {s : σ}
    {post : β → σ → Prop} :
    Ends (shelf.update i f) s post ↔
      ∃ t b u, shelf.get? i s = some t ∧ f t = .ok (b, u) ∧ post b (shelf.put i u s) := by
  unfold Ends update
  cases shelf.get? i s with
  | none => simp
  | some t =>
    cases hf : f t with
    | error fault => simp [hf]
    | ok r =>
      constructor
      · exact fun h => ⟨t, r.1, r.2, rfl, hf, by simpa only [hf] using h⟩
      · rintro ⟨_, b, u, ht, hr, h⟩
        cases ht
        simpa only [hr] using h

theorem ends_run {i : ι} {x : Action (τ × σ) β} {s : σ} {post : β → σ → Prop} :
    Ends (shelf.run i x) s post ↔ ∃ t, shelf.get? i s = some t ∧
      Ends x (t, s) fun b p => post b (shelf.put i p.1 p.2) := by
  unfold Ends run
  cases shelf.get? i s with
  | none => simp
  | some t => cases hx : x (t, s) <;> simp [hx]

end TschLearning.Shelf
