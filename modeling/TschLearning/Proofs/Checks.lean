import TschLearning.Fault

/-! Checks, one after the other. A row of them goes through if each of its parts does. -/

namespace TschLearning

variable {β γ : Type}

/-- A computation in two parts yields something if both parts do. -/
theorem bind_eq_ok {x : Except Fault β} {f : β → Except Fault γ} {c : γ} :
    (x >>= f) = .ok c ↔ ∃ b, x = .ok b ∧ f b = .ok c := by
  cases x with
  | ok b => simp [bind, Except.bind]
  | error e => simp [bind, Except.bind]

/-- A computation in two parts fails where one of them does. -/
theorem bind_eq_error {x : Except Fault β} {f : β → Except Fault γ} {why : Fault} :
    (x >>= f) = .error why ↔ x = .error why ∨ ∃ b, x = .ok b ∧ f b = .error why := by
  cases x with
  | ok b => simp [bind, Except.bind]
  | error e => simp [bind, Except.bind]

/-- If a row of checks goes through, each of them does. -/
theorem forIn_eq_ok {f : β → Except Fault Unit} {xs : List β} {u : PUnit}
    (h : (forIn xs PUnit.unit fun x _ => do
      f x
      pure (ForInStep.yield PUnit.unit)) = .ok u) : ∀ x ∈ xs, f x = .ok () := by
  induction xs with
  | nil => exact fun x hx => absurd hx List.not_mem_nil
  | cons x xs ih =>
    rw [List.forIn_cons] at h
    obtain ⟨_, hstep, h⟩ := bind_eq_ok.1 h
    obtain ⟨_, hx, hyield⟩ := bind_eq_ok.1 hstep
    cases hyield
    exact List.forall_mem_cons.2 ⟨hx, ih h⟩

theorem forIn_of_ok {f : β → Except Fault Unit} {xs : List β} (h : ∀ x ∈ xs, f x = .ok ()) :
    (forIn xs PUnit.unit fun x _ => do
      f x
      pure (ForInStep.yield PUnit.unit)) = .ok PUnit.unit := by
  induction xs with
  | nil => rfl
  | cons x xs ih =>
    obtain ⟨hx, hrest⟩ := List.forall_mem_cons.1 h
    rw [List.forIn_cons, hx]
    exact ih hrest

/-- If a row of checks goes through, it yields what each of them does, in order. -/
theorem mapM_eq_ok {f : β → Except Fault γ} {xs : List β} {ys : List γ}
    (h : xs.mapM f = .ok ys) : ys.length = xs.length ∧ ∀ y ∈ ys, ∃ x ∈ xs, f x = .ok y := by
  induction xs generalizing ys with
  | nil =>
    cases h
    exact ⟨rfl, fun y hy => absurd hy List.not_mem_nil⟩
  | cons x xs ih =>
    rw [List.mapM_cons] at h
    obtain ⟨y, hy, h⟩ := bind_eq_ok.1 h
    obtain ⟨rest, hrest, h⟩ := bind_eq_ok.1 h
    cases h
    obtain ⟨hlen, hall⟩ := ih hrest
    refine ⟨congrArg (· + 1) hlen, List.forall_mem_cons.2 ⟨⟨x, List.mem_cons_self, hy⟩, ?_⟩⟩
    intro y' hy'
    obtain ⟨x', hx', hf⟩ := hall y' hy'
    exact ⟨x', List.mem_cons_of_mem x hx', hf⟩

end TschLearning
