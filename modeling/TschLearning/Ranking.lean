import TschLearning.Ranking.Stretch

/-! Ordering a row. Entries that have a place in the order, each beside every other one, can be
arranged in one way only if equal ones stay as they came: `ordered_arrange`. Where an entry has
none, as an undefined number, the outcome is what merging the runs of the row leads to. -/

namespace TschLearning.Ranking

variable {α : Type}

def arrange (isPlaced : α → Bool) (before : α → α → Bool) (row : List α) : List α :=
  if row.all isPlaced then row.mergeSort fun a b => !before b a else gather before row

/-- The row in the opposite order, equal entries still as they came. -/
def descending (isPlaced : α → Bool) (before : α → α → Bool) (row : List α) : List α :=
  (arrange isPlaced before row.reverse).reverse

theorem perm_arrange (isPlaced : α → Bool) (before : α → α → Bool) (row : List α) :
    (arrange isPlaced before row).Perm row := by
  unfold arrange
  split
  · exact List.mergeSort_perm row _
  · exact perm_gather before row

theorem perm_descending (isPlaced : α → Bool) (before : α → α → Bool) (row : List α) :
    (descending isPlaced before row).Perm row :=
  (List.reverse_perm _).trans ((perm_arrange isPlaced before _).trans (List.reverse_perm _))

/-- Entries have an order among each other: of two of them at most one is before the other, and not
being before goes on from entry to entry. -/
structure Total (among : α → Bool) (before : α → α → Bool) : Prop where
  asymm : ∀ {a b}, among a = true → among b = true → before a b = true → before b a = false
  trans : ∀ {a b c}, among a = true → among b = true → among c = true →
    before b a = false → before c b = false → before c a = false

/-- The order of some entries, with all others behind them. -/
def extended (among : α → Bool) (before : α → α → Bool) (a b : α) : Bool :=
  if among a then !among b || !before b a else !among b

variable {among isPlaced : α → Bool} {before : α → α → Bool}

theorem extended_trans (h : Total among before) (a b c : α)
    (hab : extended among before a b = true) (hbc : extended among before b c = true) :
    extended among before a c = true := by
  unfold extended at *
  cases ha : among a <;> cases hb : among b <;> cases hc : among c <;>
    simp_all only [Bool.not_true, Bool.not_false, Bool.false_or, Bool.true_or, if_true,
      Bool.not_eq_true', reduceIte, Bool.false_eq_true]
  exact h.trans ha hb hc hab hbc

theorem extended_total (h : Total among before) (a b : α) :
    (extended among before a b || extended among before b a) = true := by
  unfold extended
  cases ha : among a <;> cases hb : among b <;> simp
  cases hx : before b a with
  | false => exact .inl rfl
  | true => exact .inr (h.asymm hb ha hx)

/-- The row is in order if its entries have one. -/
theorem ordered_arrange (h : Total among before) {row : List α}
    (placed : ∀ x ∈ row, isPlaced x = true) (inside : ∀ x ∈ row, among x = true) :
    (arrange isPlaced before row).Pairwise fun a b => before b a = false := by
  have same : row.mergeSort (fun a b => !before b a) = row.mergeSort (extended among before) := by
    have := List.map_mergeSort (f := id) (r := fun a b => !before b a)
      (s := extended among before) (l := row) (fun a ha b hb => by
        simp [extended, inside a ha, inside b hb])
    simpa using this
  unfold arrange
  rw [if_pos (List.all_eq_true.2 placed), same]
  refine (List.pairwise_mergeSort (extended_trans h) (extended_total h) row).imp_of_mem ?_
  intro a b ha hb hab
  have ha := inside a (List.mem_mergeSort.1 ha)
  have hb := inside b (List.mem_mergeSort.1 hb)
  simpa [extended, ha, hb] using hab

theorem ordered_descending (h : Total among before) {row : List α}
    (placed : ∀ x ∈ row, isPlaced x = true) (inside : ∀ x ∈ row, among x = true) :
    (descending isPlaced before row).Pairwise fun a b => before a b = false :=
  List.pairwise_reverse.2 (ordered_arrange h
    (fun x hx => placed x (List.mem_reverse.1 hx)) fun x hx => inside x (List.mem_reverse.1 hx))

end TschLearning.Ranking
