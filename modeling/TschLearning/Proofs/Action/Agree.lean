import TschLearning.Proofs.Action.Ends

/-! Two operations run side by side. `Agree R P x y` says that from states related by `R` the
operations `x` and `y` either both end, with results related by `P`, or both fail with the same
fault, and that the states they leave are related again. -/

namespace TschLearning.Action

variable {σ τ κ β γ β' γ' : Type}

/-- The operations end or fail alike. -/
def Agree (R : σ → τ → Prop) (P : β → γ → Prop) (x : Action σ β) (y : Action τ γ) : Prop :=
  ∀ s t, R s t → match x s, y t with
    | .ok b s', .ok c t' => P b c ∧ R s' t'
    | .error f s', .error g t' => f = g ∧ R s' t'
    | _, _ => False

variable {R : σ → τ → Prop}

theorem Agree.ends {P : β → γ → Prop} {x : Action σ β} {y : Action τ γ} (h : Agree R P x y)
    {s : σ} {t : τ} (hst : R s t) {post : β → σ → Prop} (hx : Ends x s post) :
    Ends y t fun c t' => ∃ b s', x s = .ok b s' ∧ post b s' ∧ P b c ∧ R s' t' := by
  have h := h s t hst
  obtain ⟨b, s', e, hp⟩ := ends_iff.1 hx
  rw [e] at h
  cases hy : y t with
  | error g t' => rw [hy] at h; exact h.elim
  | ok c t' =>
    rw [hy] at h
    exact ends_iff.2 ⟨c, t', hy, b, s', e, hp, h⟩

theorem Agree.mono {P Q : β → γ → Prop} {x : Action σ β} {y : Action τ γ} (h : Agree R P x y)
    (hw : ∀ b c, P b c → Q b c) : Agree R Q x y := by
  intro s t hst
  have h := h s t hst
  split at h
  · exact ⟨hw _ _ h.1, h.2⟩
  · exact h
  · exact h.elim

theorem Agree.symm {x : Action σ β} {y : Action τ β} (h : Agree R Eq x y) :
    Agree (fun t s => R s t) Eq y x := by
  intro t s hst
  have h := h s t hst
  split at h
  · rename_i hx hy
    rw [hx, hy]
    exact ⟨h.1.symm, h.2⟩
  · rename_i hx hy
    rw [hx, hy]
    exact ⟨h.1.symm, h.2⟩
  · exact h.elim

theorem agree_self (x : Action σ β) : Agree Eq Eq x x := by
  rintro s _ rfl
  split
  · rename_i hx hy
    cases hx.symm.trans hy
    exact ⟨rfl, rfl⟩
  · rename_i hx hy
    cases hx.symm.trans hy
    exact ⟨rfl, rfl⟩
  · rename_i hok herror
    cases hx : x s with
    | ok b t => exact hok b t b t hx hx
    | error f t => exact herror f t f t hx hx

/-! ### Operations put together -/

theorem agree_pure {P : β → γ → Prop} {b : β} {c : γ} (h : P b c) :
    Agree R P (pure b) (pure c) := fun _ _ hst => ⟨h, hst⟩

theorem agree_throw {P : β → γ → Prop} (f : Fault) :
    Agree R P (throw f) (throw f) := fun _ _ hst => ⟨rfl, hst⟩

theorem Agree.bind {P : β → γ → Prop} {Q : β' → γ' → Prop} {x : Action σ β} {y : Action τ γ}
    {f : β → Action σ β'} {g : γ → Action τ γ'} (hxy : Agree R P x y)
    (hfg : ∀ b c, P b c → Agree R Q (f b) (g c)) : Agree R Q (x >>= f) (y >>= g) := by
  intro s t hst
  have h := hxy s t hst
  simp only [Bind.bind, EStateM.bind]
  split at h
  · rename_i b s' c t' hx hy
    rw [hx, hy]
    exact hfg b c h.1 s' t' h.2
  · rename_i b s' c t' hx hy
    rw [hx, hy]
    exact h
  · exact h.elim

theorem Agree.first {P : β → γ → Prop} {b : Prop} [Decidable b] {x : Action σ Unit}
    {y : Action τ Unit} {f : Unit → Action σ β} {g : Unit → Action τ γ} (hxy : Agree R Eq x y)
    (hfg : Agree R P (f ()) (g ())) :
    Agree R P (if b then x >>= f else f ()) (if b then y >>= g else g ()) := by
  split
  · exact hxy.bind fun _ _ _ => hfg
  · exact hfg

theorem agree_forM {ι : Type} {x : ι → Action σ PUnit} {y : ι → Action τ PUnit}
    (h : ∀ i, Agree R Eq (x i) (y i)) (items : List ι) :
    Agree R Eq (items.forM x) (items.forM y) := by
  induction items with
  | nil => exact agree_pure rfl
  | cons i rest ih => exact (h i).bind fun _ _ _ => ih

theorem agree_ofExcept (e : Except Fault β) : Agree R Eq (ofExcept e) (ofExcept e) := by
  cases e with
  | ok b => exact agree_pure rfl
  | error f => exact agree_throw f

theorem agree_note [Journal σ] [Journal τ] {n : Note}
    (hn : ∀ s t, R s t →
      Journal.obstacle? n s = Journal.obstacle? n t ∧ R (Journal.enter n s) (Journal.enter n t)) :
    Agree R Eq (note n) (note n) := by
  intro s t hst
  obtain ⟨ho, he⟩ := hn s t hst
  unfold note
  rw [ho]
  cases Journal.obstacle? n t with
  | none => exact ⟨rfl, he⟩
  | some f => exact ⟨rfl, hst⟩

theorem Agree.refusal? {x : Action σ Unit} {y : Action τ Unit} (h : Agree R Eq x y) :
    Agree R Eq (refusal? x) (refusal? y) := by
  intro s t hst
  have h := h s t hst
  unfold Action.refusal?
  split at h
  · rename_i hx hy
    rw [hx, hy]
    exact ⟨rfl, h.2⟩
  · rename_i f s' g t' hx hy
    obtain ⟨rfl, h⟩ := h
    simp only [hx, hy]
    cases f.isRefusal
    · exact ⟨rfl, h⟩
    · exact ⟨rfl, h⟩
  · exact h.elim

/-! ### Parts of a state -/

/-- The same part in surroundings that are related. -/
def Beside (κ : Type) (R : σ → τ → Prop) (p : κ × σ) (q : κ × τ) : Prop := p.1 = q.1 ∧ R p.2 q.2

/-- The same part in surroundings that are related as the part asks for. -/
def Around (R : κ → σ → τ → Prop) (p : κ × σ) (q : κ × τ) : Prop := p.1 = q.1 ∧ R p.1 p.2 q.2

theorem agree_part : Agree (Beside κ R) Eq part part := by
  rintro ⟨k, s⟩ ⟨_, t⟩ ⟨rfl, hst⟩
  exact ⟨rfl, rfl, hst⟩

theorem agree_change (f : κ → κ) : Agree (Beside κ R) Eq (change f) (change f) := by
  rintro ⟨k, s⟩ ⟨_, t⟩ ⟨rfl, hst⟩
  exact ⟨rfl, rfl, hst⟩

theorem agree_part_around {R : κ → σ → τ → Prop} :
    Agree (Around R) (fun k l => k = l ∧ ∃ s t, R k s t) part part := by
  rintro ⟨k, s⟩ ⟨_, t⟩ ⟨rfl, hst⟩
  exact ⟨⟨rfl, s, t, hst⟩, rfl, hst⟩

theorem agree_change_around {R : κ → σ → τ → Prop} {f : κ → κ}
    (h : ∀ k s t, R k s t → R (f k) s t) : Agree (Around R) Eq (change f) (change f) := by
  rintro ⟨k, s⟩ ⟨_, t⟩ ⟨rfl, hst⟩
  exact ⟨rfl, rfl, h k s t hst⟩

theorem Agree.outside_around {R : κ → σ → τ → Prop} {P : β → γ → Prop} {x : Action σ β}
    {y : Action τ γ} (h : ∀ k, Agree (R k) P x y) : Agree (Around R) P x.outside y.outside := by
  rintro ⟨k, s⟩ ⟨_, t⟩ ⟨rfl, hst⟩
  have h := h k s t hst
  simp only [Action.outside]
  split at h
  · rename_i hx hy
    simp only [hx, hy]
    exact ⟨h.1, rfl, h.2⟩
  · rename_i hx hy
    simp only [hx, hy]
    exact ⟨h.1, rfl, h.2⟩
  · exact h.elim

theorem Agree.outside {P : β → γ → Prop} {x : Action σ β} {y : Action τ γ} (h : Agree R P x y) :
    Agree (Beside κ R) P x.outside y.outside :=
  Agree.outside_around fun _ => h

theorem Agree.within {κ' : Type} {P : β → γ → Prop} {get : κ → κ'} {put : κ' → κ → κ}
    {x : Action (κ' × σ) β} {y : Action (κ' × τ) γ} (h : Agree (Beside κ' R) P x y) :
    Agree (Beside κ R) P (within get put x) (within get put y) := by
  rintro ⟨k, s⟩ ⟨_, t⟩ ⟨rfl, hst⟩
  have h := h (get k, s) (get k, t) ⟨rfl, hst⟩
  simp only [Action.within]
  split at h
  · rename_i hx hy
    simp only [hx, hy]
    exact ⟨h.1, by rw [h.2.1], h.2.2⟩
  · rename_i hx hy
    simp only [hx, hy]
    exact ⟨h.1, by rw [h.2.1], h.2.2⟩
  · exact h.elim

theorem Agree.within_around {κ' : Type} {R : κ → σ → τ → Prop} {P : β → γ → Prop} {get : κ → κ'}
    {put : κ' → κ → κ} (hput : ∀ k, put (get k) k = k) {x : Action (κ' × σ) β}
    {y : Action (κ' × τ) γ} (h : ∀ k, Agree (Around fun l => R (put l k)) P x y) :
    Agree (Around R) P (Action.within get put x) (Action.within get put y) := by
  rintro ⟨k, s⟩ ⟨_, t⟩ ⟨rfl, hst⟩
  have hback : R (put (get k) k) s t := by rwa [hput]
  have h := h k (get k, s) (get k, t) ⟨rfl, hback⟩
  simp only [Action.within]
  split at h
  · rename_i hx hy
    simp only [hx, hy]
    exact ⟨h.1, by rw [h.2.1], h.2.2⟩
  · rename_i hx hy
    simp only [hx, hy]
    exact ⟨h.1, by rw [h.2.1], h.2.2⟩
  · exact h.elim

theorem note_eq_outside [Journal σ] (n : Note) :
    (note n : Action (κ × σ) Unit) = (note n).outside := by
  funext ⟨k, s⟩
  have hobstacle : Journal.obstacle? n (k, s) = Journal.obstacle? n s := rfl
  simp only [Action.outside, note, hobstacle]
  cases Journal.obstacle? n s <;> rfl

theorem Agree.note_beside [Journal σ] [Journal τ] {n : Note}
    (h : Agree R Eq (note n) (note n)) : Agree (Beside κ R) Eq (note n) (note n) := by
  rw [note_eq_outside, note_eq_outside]
  exact h.outside

end TschLearning.Action

namespace TschLearning.Shelf

open TschLearning.Action

variable {ι κ β σ τ : Type}

/-- Shelves that hold the same, whatever is put on them. -/
structure Alike (R : σ → τ → Prop) (shelf : Shelf ι κ σ) (shelf' : Shelf ι κ τ) : Prop where
  get? : ∀ {i s t}, R s t → shelf.get? i s = shelf'.get? i t
  put : ∀ {i x s t}, R s t → R (shelf.put i x s) (shelf'.put i x t)

namespace Alike

variable {R : σ → τ → Prop} {shelf : Shelf ι κ σ} {shelf' : Shelf ι κ τ}
  (h : Alike R shelf shelf') (i : ι)

include h

theorem agree_read : Agree R Eq (shelf.read i) (shelf'.read i) := by
  intro s t hst
  unfold read
  rw [h.get? hst]
  cases shelf'.get? i t with
  | none => exact ⟨rfl, hst⟩
  | some x => exact ⟨rfl, hst⟩

theorem agree_update (f : κ → Except Fault (β × κ)) :
    Agree R Eq (shelf.update i f) (shelf'.update i f) := by
  intro s t hst
  unfold update
  rw [h.get? hst]
  cases shelf'.get? i t with
  | none => exact ⟨rfl, hst⟩
  | some x =>
    dsimp only
    cases f x with
    | error fault => exact ⟨rfl, hst⟩
    | ok r => exact ⟨rfl, h.put hst⟩

theorem agree_alone (x : Action κ β) : Agree R Eq (shelf.alone i x) (shelf'.alone i x) := by
  intro s t hst
  unfold alone
  rw [h.get? hst]
  cases shelf'.get? i t with
  | none => exact ⟨rfl, hst⟩
  | some k =>
    dsimp only
    cases x k with
    | error fault l => exact ⟨rfl, h.put hst⟩
    | ok b l => exact ⟨rfl, h.put hst⟩

theorem agree_run {x : Action (κ × σ) β} {y : Action (κ × τ) β}
    (hxy : Agree (Beside κ R) Eq x y) : Agree R Eq (shelf.run i x) (shelf'.run i y) := by
  intro s t hst
  unfold run
  rw [h.get? hst]
  cases shelf'.get? i t with
  | none => exact ⟨rfl, hst⟩
  | some k =>
    have hk := hxy (k, s) (k, t) ⟨rfl, hst⟩
    dsimp only
    split at hk
    · rename_i hx hy
      obtain ⟨hb, hl, hst'⟩ := hk
      simp only [hx, hy]
      exact ⟨hb, by rw [hl]; exact h.put hst'⟩
    · rename_i hx hy
      obtain ⟨hf, hl, hst'⟩ := hk
      simp only [hx, hy]
      exact ⟨hf, by rw [hl]; exact h.put hst'⟩
    · exact hk.elim

end Alike
end TschLearning.Shelf
