import TschLearning.Ranking.Run

/-! Two runs woven into one. Entries go one by one as long as both runs take turns; where one of
them goes on for some time, the place of the other's next entry is looked for in leaps. How long
that time is changes with the success of leaps and is handed on from merge to merge. Every entry
stays: `perm_merge`. -/

namespace TschLearning.Ranking

variable {α : Type}

/-- The entries that a leap has to pass to be worth it, and that have to come from one run before
leaps are tried at first. -/
def leapLength : Nat := 7

/-- Where leaps in a row that grow twofold stop: the last place before that, and the next one. -/
def stride (stops : α → Bool) (row : List α) : Nat → Nat → Nat → Nat × Nat
  | 0, last, next => (last, next)
  | fuel + 1, last, next =>
    if row[next]?.any (!stops ·) then stride stops row fuel next (2 * next + 1) else (last, next)

/-- The number of entries at the front of a row that a search goes past: by leaps, and then by
halving the last of them. -/
def reach (stops : α → Bool) (middle : Nat → Nat) (row : List α) : Nat :=
  if row.head?.all stops then 0
  else
    let (last, next) := stride stops row row.length 0 1
    seat stops middle row row.length (last + 1) (min next row.length)

/-- What is left of two runs, and what is woven of them, the last entry in front. -/
structure Weave (α : Type) where
  first : List α
  second : List α
  woven : List α

namespace Weave

def all (w : Weave α) : List α := w.woven ++ (w.first ++ w.second)

/-- Whether there is nothing left to compare. The last entry of the first run goes to the end
unseen. -/
def isDone : Weave α → Bool
  | ⟨[], _, _⟩ | ⟨[_], _, _⟩ | ⟨_, [], _⟩ => true
  | _ => false

def row (w : Weave α) : List α :=
  w.woven.reverse ++ match w.first with
    | [x] => w.second ++ [x]
    | xs => xs ++ w.second

def takeFirst (w : Weave α) (count : Nat) : Weave α :=
  if w.isDone then w
  else ⟨w.first.drop count, w.second, (w.first.take count).reverse ++ w.woven⟩

def takeSecond (w : Weave α) (count : Nat) : Weave α :=
  if w.isDone then w
  else ⟨w.first, w.second.drop count, (w.second.take count).reverse ++ w.woven⟩

structure Rule (α : Type) where
  -- whether an entry of the second run goes in front of one of the first run
  leads : α → α → Bool
  middle : Nat → Nat
  -- whether leaps begin with the first run
  firstLeaps : Bool

/-- Weaves in the entries of the first run that go in front of the next one of the second run;
gives their number. -/
def leapFirst (r : Rule α) (w : Weave α) : Nat × Weave α :=
  match w.second with
  | [] => (0, w)
  | y :: _ =>
    let count := reach (r.leads y) r.middle w.first
    (count, w.takeFirst count)

/-- Weaves in the entries of the second run that go in front of the next one of the first run;
gives their number. -/
def leapSecond (r : Rule α) (w : Weave α) : Nat × Weave α :=
  match w.first with
  | [] => (0, w)
  | x :: _ =>
    let count := reach (!r.leads · x) r.middle w.second
    (count, w.takeSecond count)

/-- A leap in each run, with the entry behind it; gives whether one of them was worth it. -/
def leaps (r : Rule α) (w : Weave α) : Bool × Weave α :=
  if r.firstLeaps then
    let (i, w) := w.leapFirst r
    let (j, w) := (w.takeSecond 1).leapSecond r
    (leapLength ≤ i || leapLength ≤ j, w.takeFirst 1)
  else
    let (j, w) := w.leapSecond r
    let (i, w) := (w.takeFirst 1).leapFirst r
    (leapLength ≤ i || leapLength ≤ j, w.takeSecond 1)

inductive Gait where
  | steps (first second : Nat)
  | leaps
deriving DecidableEq, Repr

/-- The gait after so many entries of one run. -/
def Gait.after (patience first second : Nat) : Gait :=
  if patience ≤ first + second then .leaps else .steps first second

/-- Weaves until there is nothing left to compare, at most so many times; gives for how many
entries of one run to wait from now on before leaps are tried. -/
def run (r : Rule α) : Nat → Gait → Nat → Weave α → Nat × Weave α
  | 0, _, patience, w => (patience, w)
  | fuel + 1, gait, patience, w =>
    if w.isDone then (patience, w)
    else match gait, w.first, w.second with
      | .steps i j, x :: _, y :: _ =>
        if r.leads y x then run r fuel (.after patience 0 (j + 1)) patience (w.takeSecond 1)
        else run r fuel (.after patience (i + 1) 0) patience (w.takeFirst 1)
      | .steps _ _, _, _ => (patience, w)
      | .leaps, _, _ =>
        let (worth, next) := w.leaps r
        if next.isDone then (patience, next)
        else if worth then run r fuel .leaps (max 1 (patience - 1)) next
        else run r fuel (.steps 0 0) (patience + 1) next

/-- Weaves two runs, of which the second one comes first. -/
def join (r : Rule α) (patience : Nat) (first second : List α) : Nat × List α :=
  let start : Weave α := ⟨first, second, []⟩
  let (patience, w) :=
    run r (first.length + second.length) (.steps 0 0) patience (start.takeSecond 1)
  (patience, w.row)

end Weave

/-- Merges two runs, from the end of the shorter one. -/
def mergeWhole (before : α → α → Bool) (patience : Nat) (left right : List α) : Nat × List α :=
  if left.length ≤ right.length then
    Weave.join ⟨before, later, true⟩ patience left right
  else
    let (patience, row) :=
      Weave.join ⟨fun y x => before x y, earlier, false⟩ patience right.reverse left.reverse
    (patience, row.reverse)

/-- Merges two runs. Entries of the left one that are not behind the right one stay where they are,
and so do entries of the right one that are not before the left one. -/
def merge (before : α → α → Bool) (patience : Nat) (left right : List α) : Nat × List α :=
  match right with
  | [] => (patience, left)
  | y :: _ =>
    let i := reach (before y) later left
    match (left.drop i).getLast? with
    | none => (patience, left ++ right)
    | some x =>
      let j := right.length - reach (before · x) earlier right.reverse
      let (patience, row) := mergeWhole before patience (left.drop i) (right.take j)
      (patience, left.take i ++ row ++ right.drop j)

/-! ### Every entry stays -/

namespace Weave

theorem perm_row (w : Weave α) : w.row.Perm w.all := by
  unfold row all
  refine (List.reverse_perm _).append ?_
  split
  · rename_i x h
    rw [h]
    exact List.perm_append_comm
  · exact .refl _

theorem perm_takeFirst (w : Weave α) (count : Nat) : (w.takeFirst count).all.Perm w.all := by
  unfold takeFirst
  split
  · exact .refl _
  · unfold all
    refine .trans (((List.reverse_perm _).append_right _).append_right _) ?_
    simp only [List.append_assoc]
    refine (List.perm_append_comm_assoc _ _ _).trans (.append_left _ ?_)
    rw [← List.append_assoc, List.take_append_drop]

theorem perm_takeSecond (w : Weave α) (count : Nat) : (w.takeSecond count).all.Perm w.all := by
  unfold takeSecond
  split
  · exact .refl _
  · unfold all
    refine .trans (((List.reverse_perm _).append_right _).append_right _) ?_
    simp only [List.append_assoc]
    refine (List.perm_append_comm_assoc _ _ _).trans (.append_left _ ?_)
    refine (List.perm_append_comm_assoc _ _ _).trans (.append_left _ ?_)
    rw [List.take_append_drop]

theorem perm_leapFirst (r : Rule α) (w : Weave α) : (w.leapFirst r).2.all.Perm w.all := by
  unfold leapFirst
  split
  · exact .refl _
  · exact perm_takeFirst w _

theorem perm_leapSecond (r : Rule α) (w : Weave α) : (w.leapSecond r).2.all.Perm w.all := by
  unfold leapSecond
  split
  · exact .refl _
  · exact perm_takeSecond w _

theorem perm_leaps (r : Rule α) (w : Weave α) : (w.leaps r).2.all.Perm w.all := by
  unfold leaps
  split
  · exact (perm_takeFirst _ _).trans ((perm_leapSecond r _).trans
      ((perm_takeSecond _ _).trans (perm_leapFirst r w)))
  · exact (perm_takeSecond _ _).trans ((perm_leapFirst r _).trans
      ((perm_takeFirst _ _).trans (perm_leapSecond r w)))

theorem perm_run (r : Rule α) (fuel : Nat) (gait : Gait) (patience : Nat) (w : Weave α) :
    (run r fuel gait patience w).2.all.Perm w.all := by
  induction fuel generalizing gait patience w with
  | zero => exact .refl _
  | succ fuel ih =>
    unfold run
    split
    · exact .refl _
    · split
      · split
        · exact (ih _ _ _).trans (perm_takeSecond w 1)
        · exact (ih _ _ _).trans (perm_takeFirst w 1)
      · exact .refl _
      · dsimp only
        split
        · exact perm_leaps r w
        · split
          · exact (ih _ _ _).trans (perm_leaps r w)
          · exact (ih _ _ _).trans (perm_leaps r w)

theorem perm_join (r : Rule α) (patience : Nat) (first second : List α) :
    (join r patience first second).2.Perm (first ++ second) :=
  (perm_row _).trans ((perm_run r _ _ _ _).trans (perm_takeSecond _ 1))

end Weave

theorem perm_mergeWhole (before : α → α → Bool) (patience : Nat) (left right : List α) :
    (mergeWhole before patience left right).2.Perm (left ++ right) := by
  unfold mergeWhole
  split
  · exact Weave.perm_join _ _ _ _
  · refine (List.reverse_perm _).trans ((Weave.perm_join _ _ _ _).trans ?_)
    rw [← List.reverse_append]
    exact List.reverse_perm _

theorem perm_merge (before : α → α → Bool) (patience : Nat) (left right : List α) :
    (merge before patience left right).2.Perm (left ++ right) := by
  unfold merge
  split
  · rw [List.append_nil]
  · rename_i y rest
    dsimp only
    split
    · exact .refl _
    · generalize reach (before y) later left = i
      rename_i x _
      generalize (y :: rest).length - reach (before · x) earlier (y :: rest).reverse = j
      refine ((perm_mergeWhole before patience _ _).append_left _ |>.append_right _).trans ?_
      rw [← List.append_assoc, List.take_append_drop, List.append_assoc, List.take_append_drop]

end TschLearning.Ranking
