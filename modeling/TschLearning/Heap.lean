/-! Binary heaps. A heap is the list of its entries: below the entry at place `i` stand those at
the places `2 * i + 1` and `2 * i + 2`, and no entry comes before the one above it. The first
entry is then one that none comes before. Entries that cannot be compared keep the places that
the moves below give them. -/

namespace TschLearning.Heap

variable {α : Type} (before : α → α → Bool)

/-- Puts an entry at a place or, as long as it comes before the entry above, further up. At
most so many levels are gone up. -/
def rise (x : α) : (levels : Nat) → List α → Nat → List α
  | levels + 1, h, i + 1 =>
    match h[i / 2]? with
    | some above =>
      if before x above then rise x levels (h.set (i + 1) above) (i / 2) else h.set (i + 1) x
    | none => h.set (i + 1) x
  | _, h, i => h.set i x

def enter (x : α) (h : List α) : List α := rise before x h.length (h ++ [x]) h.length

/-- Fills the hole at a place with the earlier of the entries below it, the hole that this
leaves likewise, and so on, at most so many levels down; gives the place of the last hole. -/
def fill : (levels : Nat) → List α → Nat → List α × Nat
  | 0, h, i => (h, i)
  | levels + 1, h, i =>
    match h[2 * i + 1]?, h[2 * i + 2]? with
    | some left, some right =>
      if before left right then fill levels (h.set i left) (2 * i + 1)
      else fill levels (h.set i right) (2 * i + 2)
    | some left, none => fill levels (h.set i left) (2 * i + 1)
    | none, _ => (h, i)

/-- The first entry and the heap of the others. The last entry takes the place of the last of
the holes, and rises from there. -/
def takeFirst : List α → Option (α × List α)
  | [] => none
  | first :: rest =>
    match rest.getLast? with
    | none => some (first, [])
    | some last =>
      let (h, i) := fill before rest.length (last :: rest.dropLast) 0
      some (first, rise before last rest.length h i)

/-! ### Small heaps -/

theorem enter_singleton (x y : α) :
    enter before x [y] = if before x y then [x, y] else [y, x] := by
  cases h : before x y <;> simp [enter, rise, h]

theorem takeFirst_pair (x y : α) : takeFirst before [x, y] = some (x, [y]) := rfl

end TschLearning.Heap
