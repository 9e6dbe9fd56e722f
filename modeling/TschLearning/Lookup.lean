/-! Rows of keys and values read as maps: the first entry of a key counts. -/

namespace TschLearning

variable {κ β : Type} [DecidableEq κ]

theorem lookup_cons_ite (k k' : κ) (b : β) (rest : List (κ × β)) :
    List.lookup k ((k', b) :: rest) = if k = k' then some b else rest.lookup k := by
  by_cases h : k = k'
  · simp [h]
  · rw [List.lookup_cons, beq_eq_false_iff_ne.2 h, if_neg h]

theorem lookup_append_singleton (k k' : κ) (b : β) (entries : List (κ × β)) :
    (entries ++ [(k', b)]).lookup k
      = (entries.lookup k).or (if k = k' then some b else none) := by
  induction entries with
  | nil => rw [List.nil_append, lookup_cons_ite]; rfl
  | cons e rest ih =>
    rw [List.cons_append, lookup_cons_ite, lookup_cons_ite, ih]
    split <;> rfl

theorem lookup_filter_ne (k k' : κ) (entries : List (κ × β)) :
    (entries.filter fun e => e.1 ≠ k').lookup k = if k = k' then none else entries.lookup k := by
  induction entries with
  | nil => simp
  | cons e rest ih =>
    obtain ⟨j, b⟩ := e
    by_cases hj : j = k'
    · subst hj
      rw [List.filter_cons_of_neg (by simp), ih, lookup_cons_ite]
      split <;> rfl
    · rw [List.filter_cons_of_pos (by simpa using hj), lookup_cons_ite, lookup_cons_ite, ih]
      by_cases hk : k = j
      · subst hk
        simp [hj]
      · simp [hk]

theorem lookup_map_replace (k k' : κ) (b : β) (entries : List (κ × β)) :
    (entries.map fun e => if e.1 = k' then (k', b) else e).lookup k
      = if k = k' then (entries.lookup k).map fun _ => b else entries.lookup k := by
  induction entries with
  | nil => simp
  | cons e rest ih =>
    obtain ⟨j, c⟩ := e
    rw [List.map_cons, lookup_cons_ite]
    by_cases hj : j = k'
    · subst hj
      rw [if_pos rfl, lookup_cons_ite, ih]
      split <;> simp_all
    · rw [if_neg hj, lookup_cons_ite, ih]
      by_cases hk : k = j
      · subst hk
        simp [hj]
      · simp [hk]

end TschLearning
