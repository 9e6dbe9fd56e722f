import TschLearning.Ranking.Weave

/-! Runs merged into a row. Runs that lie side by side are merged in an order in which both have
about the same length: the boundary between two of them lies the deeper, the more often the row has
to be halved until a half ends between their midpoints, and deeper boundaries go first. Every entry
stays: `perm_gather`. -/

namespace TschLearning.Ranking

variable {α : Type}

/-- A run at its place in a row. -/
structure Stretch (α : Type) where
  -- the number of entries in front of the run
  start : Nat
  run : List α
  -- how deep the boundary in front of the run lies
  depth : Nat

namespace Stretch

/-- How deep a boundary lies between two midpoints `a / 2` and `b / 2` of a row of some length: the
first binary place in which their shares of the row differ, at most so many places. -/
def depthBetween (length : Nat) : Nat → Nat → Nat → Nat
  | 0, _, _ => 0
  | fuel + 1, a, b =>
    if length ≤ a then 1 + depthBetween length fuel (2 * (a - length)) (2 * (b - length))
    else if length ≤ b then 1
    else 1 + depthBetween length fuel (2 * a) (2 * b)

def join (before : α → α → Bool) (patience : Nat) (left right : Stretch α) : Nat × Stretch α :=
  let (patience, run) := merge before patience left.run right.run
  (patience, { left with run })

/-- Merges the last stretch with those in front of it as long as the boundary between lies deeper
than another one. -/
def settle (before : α → α → Bool) (depth : Nat) (patience : Nat) (last : Stretch α) :
    List (Stretch α) → Nat × List (Stretch α)
  | [] => (patience, [last])
  | previous :: rest =>
    if depth < last.depth then
      let (patience, joined) := join before patience previous last
      settle before depth patience joined rest
    else (patience, last :: previous :: rest)

/-- Enters a run behind the stretches so far, the last one in front. -/
def enter (before : α → α → Bool) (length : Nat) (sofar : Nat × List (Stretch α)) (run : List α) :
    Nat × List (Stretch α) :=
  match sofar.2 with
  | [] => (sofar.1, [⟨0, run, 0⟩])
  | last :: rest =>
    let a := 2 * last.start + last.run.length
    let depth := depthBetween length length a (a + last.run.length + run.length)
    let (patience, stretches) := settle before depth sofar.1 last rest
    (patience, ⟨last.start + last.run.length, run, depth⟩ :: stretches)

/-- Merges all stretches from the last one on; where the one before its neighbour is shorter than
it, those two are merged first. -/
def collapse (before : α → α → Bool) (patience : Nat) (last : Stretch α) :
    List (Stretch α) → List α
  | [] => last.run
  | [previous] => (join before patience previous last).2.run
  | second :: first :: rest =>
    if first.run.length < last.run.length then
      let (patience, joined) := join before patience first second
      collapse before patience last (joined :: rest)
    else
      let (patience, joined) := join before patience second last
      collapse before patience joined (first :: rest)
termination_by stretches => stretches.length

def entries (stretches : List (Stretch α)) : List α := stretches.flatMap (·.run)

end Stretch

/-- The runs of a row, merged. -/
def gather (before : α → α → Bool) (row : List α) : List α :=
  let found := runs before (leastLength 0 row.length) row.length row
  match found.foldl (Stretch.enter before row.length) (leapLength, []) with
  | (_, []) => []
  | (patience, last :: rest) => Stretch.collapse before patience last rest

/-! ### Every entry stays -/

namespace Stretch

variable (before : α → α → Bool)

theorem perm_join (patience : Nat) (left right : Stretch α) :
    (join before patience left right).2.run.Perm (left.run ++ right.run) :=
  perm_merge before patience left.run right.run

theorem perm_settle (depth patience : Nat) (last : Stretch α) (rest : List (Stretch α)) :
    (entries (settle before depth patience last rest).2).Perm (entries (last :: rest)) := by
  induction rest generalizing patience last with
  | nil => exact .refl _
  | cons previous rest ih =>
    unfold settle
    split
    · refine (ih _ _).trans ?_
      simp only [entries, List.flatMap_cons]
      rw [← List.append_assoc]
      exact ((perm_join before patience previous last).trans List.perm_append_comm).append_right _
    · exact .refl _

theorem perm_enter (length : Nat) (sofar : Nat × List (Stretch α)) (run : List α) :
    (entries (enter before length sofar run).2).Perm (run ++ entries sofar.2) := by
  unfold enter
  split
  · rename_i h
    rw [h]
    exact .refl _
  · rename_i last rest h
    rw [h]
    exact (perm_settle before _ sofar.1 last rest).append_left run

theorem perm_foldl_enter (length : Nat) (found : List (List α)) (sofar : Nat × List (Stretch α)) :
    (entries (found.foldl (enter before length) sofar).2).Perm
      (entries sofar.2 ++ found.flatten) := by
  induction found generalizing sofar with
  | nil => exact .of_eq (List.append_nil _).symm
  | cons run found ih =>
    refine (ih _).trans (((perm_enter before length sofar run).append_right _).trans ?_)
    rw [List.append_assoc, List.flatten_cons]
    exact List.perm_append_comm_assoc _ _ _

theorem perm_collapse (patience : Nat) (last : Stretch α) (rest : List (Stretch α)) :
    (collapse before patience last rest).Perm (entries (last :: rest)) := by
  fun_induction collapse before patience last rest with
  | case1 patience last => exact .of_eq (List.append_nil _).symm
  | case2 patience last previous =>
    refine (perm_join before patience previous last).trans (List.perm_append_comm.trans ?_)
    exact .of_eq (by simp only [entries, List.flatMap_cons, List.flatMap_nil, List.append_nil])
  | case3 patience last second first rest shorter next joined e ih =>
    have h := perm_join before patience first second
    rw [e] at h
    refine ih.trans (.append_left _ ?_)
    refine ((h.trans List.perm_append_comm).append_right _).trans (.of_eq ?_)
    rw [List.append_assoc]
    rfl
  | case4 patience last second first rest longer next joined e ih =>
    have h := perm_join before patience second last
    rw [e] at h
    refine ih.trans (((h.trans List.perm_append_comm).append_right _).trans (.of_eq ?_))
    rw [List.append_assoc]
    rfl

end Stretch

theorem perm_gather (before : α → α → Bool) (row : List α) : (gather before row).Perm row := by
  have h := (Stretch.perm_foldl_enter before row.length
    (runs before (leastLength 0 row.length) row.length row) (leapLength, [])).trans
    (perm_flatten_runs before _ _ row)
  unfold gather
  revert h
  dsimp only
  split
  · rename_i e
    rw [e]
    exact fun h => h
  · rename_i e
    rw [e]
    exact fun h => (Stretch.perm_collapse before _ _ _).trans h

end TschLearning.Ranking
