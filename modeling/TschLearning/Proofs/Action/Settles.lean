import TschLearning.Proofs.Action.Agree
import TschLearning.Proofs.Action.Store

/-! Operations whose faults are results as well. `Settles x s post` says that `post` holds of what
comes of the operation `x` started in the state `s`, be it a value or a fault, and of the state
that it leaves. -/

namespace TschLearning.Action

variable {σ τ κ β γ : Type}

/-- The postcondition holds of what comes of the operation and of the state that it leaves. -/
def Settles (x : Action σ β) (s : σ) (post : Except Fault β → σ → Prop) : Prop :=
  match x s with
  | .ok b t => post (.ok b) t
  | .error f t => post (.error f) t

/-- The operation with its fault as a value. What it changed before it failed stays changed. -/
def attempt (x : Action σ β) : Action σ (Except Fault β) := fun s =>
  match x s with
  | .ok b t => .ok (.ok b) t
  | .error f t => .ok (.error f) t

variable {s : σ} {post : Except Fault β → σ → Prop}

theorem settles_iff {x : Action σ β} :
    Settles x s post ↔ ∃ r t, attempt x s = .ok r t ∧ post r t := by
  unfold Settles attempt
  cases x s with
  | ok b t => exact ⟨fun h => ⟨_, _, rfl, h⟩, fun ⟨_, _, e, h⟩ => by cases e; exact h⟩
  | error f t => exact ⟨fun h => ⟨_, _, rfl, h⟩, fun ⟨_, _, e, h⟩ => by cases e; exact h⟩

theorem Settles.mono {x : Action σ β} {weaker : Except Fault β → σ → Prop}
    (h : Settles x s post) (hw : ∀ r t, post r t → weaker r t) : Settles x s weaker := by
  obtain ⟨r, t, e, hp⟩ := settles_iff.1 h
  exact settles_iff.2 ⟨r, t, e, hw r t hp⟩

theorem settles_congr {x y : Action σ β} {t : σ} (h : x s = y t) :
    Settles x s post ↔ Settles y t post := by
  unfold Settles
  rw [h]

theorem settles_of_eq_error {x : Action σ β} {f : Fault} {t : σ} (he : x s = .error f t) :
    Settles x s post ↔ post (.error f) t := by
  unfold Settles
  rw [he]

theorem Settles.error {x : Action σ β} (h : Settles x s post) {f : Fault} {t : σ}
    (he : x s = .error f t) : post (.error f) t :=
  (settles_of_eq_error he).1 h

@[simp] theorem ends_attempt {x : Action σ β} : Ends (attempt x) s post ↔ Settles x s post := by
  rw [ends_iff, settles_iff]

theorem eq_ok_of_attempt_eq_ok {x : Action σ β} {b : β} {t : σ}
    (h : attempt x s = .ok (.ok b) t) : x s = .ok b t := by
  unfold attempt at h
  split at h
  · rename_i hx
    cases h
    exact hx
  · cases h

theorem settles_of_ends {x : Action σ β} (h : Ends x s fun b t => post (.ok b) t) :
    Settles x s post := by
  obtain ⟨b, t, e, hp⟩ := ends_iff.1 h
  unfold Settles
  rwa [e]

theorem ends_of_settles {x : Action σ β} {post : β → σ → Prop}
    (h : Settles x s fun r t => ∃ b, r = .ok b ∧ post b t) : Ends x s post := by
  rw [ends_iff]
  unfold Settles at h
  split at h
  · rename_i b t he
    obtain ⟨_, hr, hb⟩ := h
    cases hr
    exact ⟨b, t, he, hb⟩
  · obtain ⟨_, hb, -⟩ := h
    cases hb

/-! ### Operations put together -/

@[simp] theorem settles_pure {b : β} : Settles (pure b) s post ↔ post (.ok b) s := Iff.rfl

@[simp] theorem settles_throw {f : Fault} :
    Settles (throw f : Action σ β) s post ↔ post (.error f) s := Iff.rfl

@[simp] theorem settles_get {post : Except Fault σ → σ → Prop} :
    Settles (get : Action σ σ) s post ↔ post (.ok s) s := Iff.rfl

@[simp] theorem settles_set {t : σ} {post : Except Fault PUnit → σ → Prop} :
    Settles (set t : Action σ PUnit) s post ↔ post (.ok ()) t := Iff.rfl

@[simp] theorem settles_modify {f : σ → σ} {post : Except Fault PUnit → σ → Prop} :
    Settles (modify f : Action σ PUnit) s post ↔ post (.ok ()) (f s) := Iff.rfl

@[simp] theorem settles_bind {x : Action σ γ} {f : γ → Action σ β} :
    Settles (x >>= f) s post ↔ Settles x s fun r t =>
      match r with
      | .ok c => Settles (f c) t post
      | .error fault => post (.error fault) t := by
  simp only [Settles, bind, EStateM.bind]
  cases x s <;> rfl

theorem Ends.settles_bind {x : Action σ γ} {f : γ → Action σ β} {mid : γ → σ → Prop}
    (hx : Ends x s mid) (hf : ∀ c t, mid c t → Settles (f c) t post) :
    Settles (x >>= f) s post := by
  rw [Action.settles_bind]
  exact settles_of_ends (hx.mono hf)

@[simp] theorem settles_ofExcept {e : Except Fault β} :
    Settles (ofExcept e) s post ↔ post e s := by
  cases e <;> exact Iff.rfl

theorem settles_ofExcept_bind {e : Except Fault γ} {f : γ → Action σ β} :
    Settles (ofExcept e >>= f) s post ↔
      match e with
      | .ok c => Settles (f c) s post
      | .error fault => post (.error fault) s := by
  rw [settles_bind, settles_ofExcept]

@[simp] theorem settles_note [Journal σ] {n : Note} {post : Except Fault Unit → σ → Prop} :
    Settles (note n) s post ↔
      match Journal.obstacle? n s with
      | none => post (.ok ()) (Journal.enter n s)
      | some f => post (.error f) s := by
  unfold Settles note
  cases Journal.obstacle? n s <;> rfl

/-- Whether a fault is a refusal is settled by what comes of the operation. -/
@[simp] theorem settles_refusal? {x : Action σ Unit}
    {post : Except Fault (Option Fault) → σ → Prop} :
    Settles (refusal? x) s post ↔ Settles x s fun r t =>
      match r with
      | .ok _ => post (.ok none) t
      | .error f => if f.isRefusal then post (.ok (some f)) t else post (.error f) t := by
  unfold Settles refusal?
  cases x s with
  | ok u t => simp
  | error f t => cases hf : f.isRefusal <;> simp [hf]

/-! ### Parts of a state -/

@[simp] theorem settles_part {t : τ} {post : Except Fault τ → τ × σ → Prop} :
    Settles (part : Action (τ × σ) τ) (t, s) post ↔ post (.ok t) (t, s) := Iff.rfl

@[simp] theorem settles_change {f : τ → τ} {t : τ} {post : Except Fault Unit → τ × σ → Prop} :
    Settles (change f : Action (τ × σ) Unit) (t, s) post ↔ post (.ok ()) (f t, s) := Iff.rfl

theorem settles_part_bind {f : τ → Action (τ × σ) β} {t : τ}
    {post : Except Fault β → τ × σ → Prop} :
    Settles (part >>= f) (t, s) post ↔ Settles (f t) (t, s) post := Iff.rfl

theorem settles_change_bind {c : τ → τ} {f : Unit → Action (τ × σ) β} {t : τ}
    {post : Except Fault β → τ × σ → Prop} :
    Settles (change c >>= f) (t, s) post ↔ Settles (f ()) (c t, s) post := Iff.rfl

@[simp] theorem settles_outside {x : Action σ β} {t : τ}
    {post : Except Fault β → τ × σ → Prop} :
    Settles (x.outside : Action (τ × σ) β) (t, s) post ↔
      Settles x s fun r u => post r (t, u) := by
  simp only [Settles, outside]
  cases x s <;> rfl

@[simp] theorem settles_within {get : τ → κ} {put : κ → τ → τ} {x : Action (κ × σ) β} {t : τ}
    {post : Except Fault β → τ × σ → Prop} :
    Settles (within get put x) (t, s) post ↔
      Settles x (get t, s) fun r u => post r (put u.1 t, u.2) := by
  simp only [Settles, within]
  cases x (get t, s) <;> rfl

theorem Agree.attempt {R : σ → τ → Prop} {x : Action σ β} {y : Action τ β} (h : Agree R Eq x y) :
    Agree R Eq (attempt x) (attempt y) := by
  intro s t hst
  have h := h s t hst
  unfold Action.attempt
  split at h
  · rename_i hx hy
    simp only [hx, hy]
    exact ⟨congrArg _ h.1, h.2⟩
  · rename_i hx hy
    simp only [hx, hy]
    exact ⟨congrArg _ h.1, h.2⟩
  · exact h.elim

/-! ### Operations time after time -/

/-- Operations for the items of a list in turn, each whatever has come of the ones before; gives
what comes of each. -/
def attemptEach {σ ι β : Type} (x : ι → Action σ β) :
    List ι → Action σ (List (Except Fault β))
  | [] => pure []
  | i :: rest => do
    let outcome ← attempt (x i)
    return outcome :: (← attemptEach x rest)

/-- What each operation keeps of the items so far holds after all of them. -/
theorem ends_attemptEach {σ ι β : Type} {x : ι → Action σ β} {I : List ι → σ → Prop}
    {items : List ι}
    (hstep : ∀ past, ∀ i ∈ items, ∀ s, I past s → Settles (x i) s fun _ t => I (past ++ [i]) t)
    {past : List ι} {s : σ} (hs : I past s) :
    Ends (attemptEach x items) s fun _ t => I (past ++ items) t := by
  induction items generalizing past s with
  | nil =>
    rw [List.append_nil]
    exact hs
  | cons i rest ih =>
    unfold attemptEach
    simp only [ends_bind, ends_attempt, ends_pure]
    apply (hstep past i List.mem_cons_self s hs).mono
    intro outcome t ht
    have hrest := ih (fun past j hj => hstep past j (List.mem_cons_of_mem _ hj)) ht
    rwa [List.append_assoc] at hrest

theorem Agree.attemptEach {σ τ ι β : Type} {R : σ → τ → Prop} {x : ι → Action σ β}
    {y : ι → Action τ β} (h : ∀ i, Agree R Eq (x i) (y i)) (items : List ι) :
    Agree R Eq (attemptEach x items) (attemptEach y items) := by
  induction items with
  | nil => exact agree_pure rfl
  | cons i rest ih =>
    apply (h i).attempt.bind
    rintro outcome _ rfl
    apply ih.bind
    rintro outcomes _ rfl
    exact agree_pure rfl

end TschLearning.Action

namespace TschLearning.Shelf

open TschLearning.Action

variable {ι τ σ β : Type} (shelf : Shelf ι τ σ)

theorem settles_update {i : ι} {f : τ → Except Fault (β × τ)} {s : σ} {t : τ}
    (ht : shelf.get? i s = some t) {post : Except Fault β → σ → Prop} :
    Settles (shelf.update i f) s post ↔
      match f t with
      | .ok r => post (.ok r.1) (shelf.put i r.2 s)
      | .error fault => post (.error fault) s := by
  unfold Settles update
  rw [ht]
  dsimp only
  cases f t <;> rfl

theorem settles_read {i : ι} {s : σ} {t : τ} (ht : shelf.get? i s = some t)
    {post : Except Fault τ → σ → Prop} : Settles (shelf.read i) s post ↔ post (.ok t) s := by
  unfold Settles read
  rw [ht]

end TschLearning.Shelf
