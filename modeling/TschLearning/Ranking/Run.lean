/-! Runs of a row. A run is in order as far as neighbours show. One that is found in strictly the
opposite order is turned round, and a short one takes in the entries after it, each at a place that
is looked for by halving. Every entry stays: `perm_flatten_runs`. -/

namespace TschLearning.Ranking

variable {α : Type}

/-- Where a search between the places `lo` and `hi` of a row ends, in front of the entries at which
it stops. It looks into the middle of what is left. -/
def seat (stops : α → Bool) (middle : Nat → Nat) (row : List α) : Nat → Nat → Nat → Nat
  | 0, lo, _ => lo
  | fuel + 1, lo, hi =>
    if lo < hi then
      let mid := lo + middle (hi - lo)
      if row[mid]?.any stops then seat stops middle row fuel lo mid
      else seat stops middle row fuel (mid + 1) hi
    else lo

/-- The middle of so many places, of two the later one. -/
def later (n : Nat) : Nat := n / 2

/-- The middle of so many places, of two the earlier one. -/
def earlier (n : Nat) : Nat := (n - 1) / 2

/-- Puts an entry into a run, behind those it is not before. -/
def place (before : α → α → Bool) (row : List α) (x : α) : List α :=
  let s := seat (before x) later row row.length 0 row.length
  row.take s ++ x :: row.drop s

/-- Splits a row where two neighbours stop to go on. -/
def run (goesOn : α → α → Bool) (last : α) : List α → List α × List α
  | [] => ([], [])
  | x :: rest =>
    if goesOn last x then
      let r := run goesOn x rest
      (x :: r.1, r.2)
    else ([], x :: rest)

/-- The leading run of a row in its order, and the entries after it. -/
def leadingRun (before : α → α → Bool) : List α → List α × List α
  | [] => ([], [])
  | x :: rest =>
    if rest.head?.any (before · x) then
      let r := run (fun last y => before y last) x rest
      ((x :: r.1).reverse, r.2)
    else
      let r := run (fun last y => !before y last) x rest
      (x :: r.1, r.2)

/-- The runs of a row, at most so many; none but the last one is shorter than `least`. -/
def runs (before : α → α → Bool) (least : Nat) : Nat → List α → List (List α)
  | _, [] => []
  | 0, row => [row]
  | fuel + 1, row =>
    let r := leadingRun before row
    let missing := least - r.1.length
    (r.2.take missing).foldl (place before) r.1
      :: runs before least fuel (r.2.drop missing)

/-- The least length of the runs of a row of some length: its first six binary digits, and one more
if another digit is one. -/
def leastLength (more length : Nat) : Nat :=
  if length < 64 then length + more else leastLength (max more (length % 2)) (length / 2)
termination_by length
decreasing_by omega

theorem perm_place (before : α → α → Bool) (row : List α) (x : α) :
    (place before row x).Perm (x :: row) := by
  unfold place
  generalize seat (before x) later row row.length 0 row.length = s
  refine List.perm_middle.trans (.of_eq ?_)
  rw [List.take_append_drop]

theorem perm_foldl_place (before : α → α → Bool) (left start : List α) :
    (left.foldl (place before) start).Perm (start ++ left) := by
  induction left generalizing start with
  | nil => rw [List.append_nil, List.foldl_nil]
  | cons x left ih =>
    refine (ih _).trans (((perm_place before start x).append_right left).trans ?_)
    exact List.perm_middle.symm

theorem run_append (goesOn : α → α → Bool) (last : α) (row : List α) :
    (run goesOn last row).1 ++ (run goesOn last row).2 = row := by
  induction row generalizing last with
  | nil => rfl
  | cons x rest ih =>
    unfold run
    split
    · exact congrArg (x :: ·) (ih x)
    · rfl

theorem perm_leadingRun (before : α → α → Bool) (row : List α) :
    ((leadingRun before row).1 ++ (leadingRun before row).2).Perm row := by
  cases row with
  | nil => exact .refl _
  | cons x rest =>
    simp only [leadingRun]
    split
    · exact ((List.reverse_perm _).append_right _).trans (.of_eq (by
        rw [List.cons_append, run_append]))
    · exact .of_eq (by rw [List.cons_append, run_append])

theorem perm_flatten_runs (before : α → α → Bool) (least fuel : Nat) (row : List α) :
    (runs before least fuel row).flatten.Perm row := by
  induction fuel generalizing row with
  | zero => cases row <;> simp [runs]
  | succ fuel ih =>
    cases row with
    | nil => exact .refl _
    | cons x rest =>
      simp only [runs, List.flatten_cons]
      refine ((perm_foldl_place before _ _).append (ih _)).trans ?_
      rw [List.append_assoc, List.take_append_drop]
      exact perm_leadingRun before (x :: rest)

end TschLearning.Ranking
