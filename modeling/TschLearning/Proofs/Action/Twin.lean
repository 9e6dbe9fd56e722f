import TschLearning.Proofs.Action.Meets

/-! Two operations run side by side to their ends. `Twin x y s t post` says that `x` from `s` and
`y` from `t` both end without a fault, and that `post` relates what they give and what they
leave. One operation is its own twin, so facts about one run come out of facts about two. -/

namespace TschLearning.Action

variable {σ τ κ κ' β γ β' γ' : Type}

/-- Both operations end, and the postcondition relates their ends. -/
def Twin (x : Action σ β) (y : Action τ γ) (s : σ) (t : τ) (post : β → γ → σ → τ → Prop) : Prop :=
  Ends x s fun b s' => Ends y t fun c t' => post b c s' t'

variable {s : σ} {t : τ}

theorem twin_iff {x : Action σ β} {y : Action τ γ} {post : β → γ → σ → τ → Prop} :
    Twin x y s t post ↔
      ∃ b s' c t', x s = .ok b s' ∧ y t = .ok c t' ∧ post b c s' t' := by
  unfold Twin
  rw [ends_iff]
  constructor
  · rintro ⟨b, s', hx, h⟩
    obtain ⟨c, t', hy, hp⟩ := ends_iff.1 h
    exact ⟨b, s', c, t', hx, hy, hp⟩
  · rintro ⟨b, s', c, t', hx, hy, hp⟩
    exact ⟨b, s', hx, ends_iff.2 ⟨c, t', hy, hp⟩⟩

theorem Twin.mono {x : Action σ β} {y : Action τ γ} {post weaker : β → γ → σ → τ → Prop}
    (h : Twin x y s t post) (hw : ∀ b c s' t', post b c s' t' → weaker b c s' t') :
    Twin x y s t weaker :=
  Ends.mono h fun _ _ hy => hy.mono fun _ _ => hw _ _ _ _

theorem Twin.bind {x : Action σ β} {y : Action τ γ} {f : β → Action σ β'} {g : γ → Action τ γ'}
    {mid : β → γ → σ → τ → Prop} {post : β' → γ' → σ → τ → Prop} (h : Twin x y s t mid)
    (hfg : ∀ b c s' t', mid b c s' t' → Twin (f b) (g c) s' t' post) :
    Twin (x >>= f) (y >>= g) s t post := by
  obtain ⟨b, s', c, t', hx, hy, hm⟩ := twin_iff.1 h
  obtain ⟨b', s'', c', t'', hf, hg, hp⟩ := twin_iff.1 (hfg b c s' t' hm)
  refine twin_iff.2 ⟨b', s'', c', t'', ?_, ?_, hp⟩
  · simp only [Bind.bind, EStateM.bind, hx, hf]
  · simp only [Bind.bind, EStateM.bind, hy, hg]

theorem Twin.left_bind {x : Action σ β} {y : Action τ γ} {f : β → Action σ β'}
    {mid : β → γ → σ → τ → Prop} {post : β' → γ → σ → τ → Prop} (h : Twin x y s t mid)
    (hf : ∀ b c s' t', mid b c s' t' → Ends (f b) s' fun b' s'' => post b' c s'' t') :
    Twin (x >>= f) y s t post := by
  obtain ⟨b, s', c, t', hx, hy, hm⟩ := twin_iff.1 h
  obtain ⟨b', s'', hf, hp⟩ := ends_iff.1 (hf b c s' t' hm)
  refine twin_iff.2 ⟨b', s'', c, t', ?_, hy, hp⟩
  simp only [Bind.bind, EStateM.bind, hx, hf]

theorem Twin.same {x : Action σ β} {t : σ} {post : β → β → σ → σ → Prop} (h : Twin x x s t post) :
    Twin x x s t fun b c s' t' => post b c s' t' ∧ (s = t → b = c ∧ s' = t') := by
  obtain ⟨b, s', c, t', hx, hy, hp⟩ := twin_iff.1 h
  refine twin_iff.2 ⟨b, s', c, t', hx, hy, hp, ?_⟩
  rintro rfl
  rw [hx] at hy
  cases hy
  exact ⟨rfl, rfl⟩

theorem Twin.and_meets {lenient : Prop} {x : Action σ β} {y : Action τ γ}
    {post : β → γ → σ → τ → Prop} {post' : β → σ → Prop} (h : Twin x y s t post)
    (h' : Meets lenient x s post') :
    Twin x y s t fun b c s' t' => post b c s' t' ∧ post' b s' :=
  (Ends.and_meets h h').mono fun _ _ hy => Ends.mono hy.1 fun _ _ hp => ⟨hp, hy.2⟩

/-! ### Operations put together -/

theorem twin_left_bind {x : Action σ β'} {f : β' → Action σ β} {y : Action τ γ}
    {post : β → γ → σ → τ → Prop} :
    Twin (x >>= f) y s t post ↔ Ends x s fun b s' => Twin (f b) y s' t post := ends_bind

theorem twin_get_bind {x : Action σ β} {g : τ → Action τ γ} {post : β → γ → σ → τ → Prop} :
    Twin x (get >>= g) s t post ↔ Twin x (g t) s t post := by
  simp only [Twin, ends_bind, ends_get]

@[simp] theorem twin_ofExcept_bind {e : Except Fault β} {e' : Except Fault γ}
    {f : β → Action σ β'} {g : γ → Action τ γ'} {post : β' → γ' → σ → τ → Prop} :
    Twin (ofExcept e >>= f) (ofExcept e' >>= g) s t post ↔
      ∃ b c, e = .ok b ∧ e' = .ok c ∧ Twin (f b) (g c) s t post := by
  cases e <;> cases e' <;> simp [Twin]
  intro h
  obtain ⟨_, _, _, h⟩ := ends_iff.1 h
  exact h

@[simp] theorem twin_note [Journal σ] [Journal τ] {n n' : Note}
    {post : Unit → Unit → σ → τ → Prop} :
    Twin (note n) (note n') s t post ↔
      Journal.obstacle? n s = none ∧ Journal.obstacle? n' t = none ∧
        post () () (Journal.enter n s) (Journal.enter n' t) := by
  simp [Twin]

/-! ### Parts of a state -/

variable {k : κ} {l : κ'}

@[simp] theorem twin_part_bind {f : κ → Action (κ × σ) β} {g : κ' → Action (κ' × τ) γ}
    {post : β → γ → κ × σ → κ' × τ → Prop} :
    Twin (part >>= f) (part >>= g) (k, s) (l, t) post ↔ Twin (f k) (g l) (k, s) (l, t) post := by
  simp [Twin]

@[simp] theorem twin_change_bind {c : κ → κ} {d : κ' → κ'} {f : Unit → Action (κ × σ) β}
    {g : Unit → Action (κ' × τ) γ} {post : β → γ → κ × σ → κ' × τ → Prop} :
    Twin (change c >>= f) (change d >>= g) (k, s) (l, t) post ↔
      Twin (f ()) (g ()) (c k, s) (d l, t) post := by
  simp [Twin]

@[simp] theorem twin_outside {x : Action σ β} {y : Action τ γ}
    {post : β → γ → κ × σ → κ' × τ → Prop} :
    Twin x.outside y.outside (k, s) (l, t) post ↔
      Twin x y s t fun b c s' t' => post b c (k, s') (l, t') := by
  simp [Twin]

@[simp] theorem twin_within {ι ι' : Type} {get : κ → ι} {put : ι → κ → κ} {get' : κ' → ι'}
    {put' : ι' → κ' → κ'} {x : Action (ι × σ) β} {y : Action (ι' × τ) γ}
    {post : β → γ → κ × σ → κ' × τ → Prop} :
    Twin (within get put x) (within get' put' y) (k, s) (l, t) post ↔
      Twin x y (get k, s) (get' l, t)
        fun b c p q => post b c (put p.1 k, p.2) (put' q.1 l, q.2) := by
  simp [Twin]

@[simp] theorem twin_beside {get : σ → κ} {put : κ → σ → σ} {get' : τ → κ'} {put' : κ' → τ → τ}
    {x : Action (κ × σ) β} {y : Action (κ' × τ) γ} {post : β → γ → σ → τ → Prop} :
    Twin (beside get put x) (beside get' put' y) s t post ↔
      Twin x y (get s, s) (get' t, t)
        fun b c p q => post b c (put p.1 p.2) (put' q.1 q.2) := by
  simp [Twin]

theorem twin_left_outside {x : Action σ β} {y : Action τ γ} {post : β → γ → κ × σ → τ → Prop} :
    Twin x.outside y (k, s) t post ↔ Twin x y s t fun b c s' => post b c (k, s') := ends_outside

/-- Both states have a given part, in surroundings that are related. -/
def Sharing (k : κ) (R : σ → τ → Prop) (p : κ × σ) (q : κ × τ) : Prop :=
  k = p.1 ∧ k = q.1 ∧ R p.2 q.2

theorem Twin.sharing {x : Action σ β} {y : Action τ γ} {post : β → γ → σ → τ → Prop}
    (h : Twin x y s t post) (k : κ) :
    Twin x.outside y.outside (k, s) (k, t) fun b c => Sharing k (post b c) :=
  twin_outside.2 (h.mono fun _ _ _ _ hp => ⟨rfl, rfl, hp⟩)

theorem Twin.within {get : κ → κ'} {put : κ' → κ → κ} {x : Action (κ' × σ) β}
    {y : Action (κ' × τ) γ} {post : β → γ → σ → τ → Prop}
    (h : Twin x y (get k, s) (get k, t) fun b c => Sharing l (post b c)) :
    Twin (within get put x) (within get put y) (k, s) (k, t)
      fun b c => Sharing (put l k) (post b c) := by
  refine twin_within.2 (h.mono ?_)
  rintro _ _ ⟨_, _⟩ ⟨_, _⟩ ⟨rfl, rfl, hp⟩
  exact ⟨rfl, rfl, hp⟩

end TschLearning.Action
