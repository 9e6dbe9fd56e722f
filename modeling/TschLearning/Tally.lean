import TschLearning.Lookup

/-! Counts by key. A key that was never counted stands at zero. -/

namespace TschLearning

/-- Counts in the order in which their keys came up. -/
structure Tally (κ : Type) where
  entries : List (κ × Nat)

namespace Tally

variable {κ : Type} [DecidableEq κ]

def empty : Tally κ := ⟨[]⟩

def count (t : Tally κ) (k : κ) : Nat := (t.entries.lookup k).getD 0

def bumpIn (k : κ) : List (κ × Nat) → List (κ × Nat)
  | [] => [(k, 1)]
  | e :: rest => if e.1 = k then (k, e.2 + 1) :: rest else e :: bumpIn k rest

def bump (t : Tally κ) (k : κ) : Tally κ := ⟨bumpIn k t.entries⟩

omit [DecidableEq κ] in
def total (t : Tally κ) : Nat := t.entries.foldr (fun e n => e.2 + n) 0

omit [DecidableEq κ] in
def sorted (t : Tally κ) (le : κ → κ → Bool) : List (κ × Nat) :=
  t.entries.mergeSort fun a b => le a.1 b.1

theorem count_bump (t : Tally κ) (k k' : κ) :
    (t.bump k).count k' = if k' = k then t.count k + 1 else t.count k' := by
  obtain ⟨entries⟩ := t
  simp only [count, bump]
  induction entries with
  | nil =>
    rw [bumpIn, lookup_cons_ite]
    split <;> rfl
  | cons e rest ih =>
    obtain ⟨j, n⟩ := e
    unfold bumpIn
    by_cases hj : j = k
    · subst hj
      rw [if_pos rfl, lookup_cons_ite, lookup_cons_ite, lookup_cons_ite, if_pos rfl]
      split <;> rfl
    · rw [if_neg hj, lookup_cons_ite, lookup_cons_ite, lookup_cons_ite, if_neg (Ne.symm hj)]
      by_cases hk : k' = j
      · subst hk
        rw [if_pos rfl, if_neg hj, if_pos rfl]
      · rw [if_neg hk, if_neg hk]
        exact ih

theorem total_bump (t : Tally κ) (k : κ) : (t.bump k).total = t.total + 1 := by
  obtain ⟨entries⟩ := t
  simp only [total, bump]
  induction entries with
  | nil => rfl
  | cons e rest ih =>
    unfold bumpIn
    split
    · simp only [List.foldr_cons]
      omega
    · simp only [List.foldr_cons, ih]
      omega

end Tally
end TschLearning
