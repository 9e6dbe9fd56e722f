import TschLearning.Fault

/-! Operations on shared state that can fail. What an operation changed before it
failed stays changed. -/

namespace TschLearning

/-- An operation on a state `σ`. -/
abbrev Action (σ : Type) := EStateM Fault σ

namespace Action

variable {σ τ κ β : Type}

/-- A computation without effect as an operation. -/
def ofExcept : Except Fault β → Action σ β
  | .ok b => pure b
  | .error f => throw f

/-- Runs an operation that may be refused: none if it is accepted, the refusal if
not. Other faults go through. -/
def refusal? (x : Action σ Unit) : Action σ (Option Fault) := fun s =>
  match x s with
  | .ok _ s => .ok none s
  | .error f s => if f.isRefusal then .ok (some f) s else .error f s

/-- Runs an operation on the surroundings of a part. -/
def outside (x : Action σ β) : Action (τ × σ) β := fun (t, s) =>
  match x s with
  | .ok b s => .ok b (t, s)
  | .error f s => .error f (t, s)

/-- Runs an operation on a part of the part at hand. -/
def within (get : τ → κ) (put : κ → τ → τ) (x : Action (κ × σ) β) : Action (τ × σ) β :=
  fun (t, s) =>
    match x (get t, s) with
    | .ok b (k, s) => .ok b (put k t, s)
    | .error f (k, s) => .error f (put k t, s)

/-- Runs an operation on a part of a state, which stays in its place meanwhile. -/
def beside (get : σ → τ) (put : τ → σ → σ) (x : Action (τ × σ) β) : Action σ β := fun s =>
  match x (get s, s) with
  | .ok b (t, s) => .ok b (put t s)
  | .error f (t, s) => .error f (put t s)

/-- Runs an operation on a part of a state alone. -/
def alone (get : σ → τ) (put : τ → σ → σ) (x : Action τ β) : Action σ β := fun s =>
  match x (get s) with
  | .ok b t => .ok b (put t s)
  | .error f t => .error f (put t s)

def part : Action (τ × σ) τ := fun (t, s) => .ok t (t, s)

def change (f : τ → τ) : Action (τ × σ) Unit := fun (t, s) => .ok () (f t, s)

end Action

/-- Parts of a state, found by a handle. -/
structure Shelf (ι τ σ : Type) where
  get? : ι → σ → Option τ
  put : ι → τ → σ → σ

namespace Shelf

variable {ι τ σ β : Type}

def run (shelf : Shelf ι τ σ) (i : ι) (x : Action (τ × σ) β) : Action σ β := fun s =>
  match shelf.get? i s with
  | none => .error .noObject s
  | some t =>
    match x (t, s) with
    | .ok b (t, s) => .ok b (shelf.put i t s)
    | .error f (t, s) => .error f (shelf.put i t s)

def read (shelf : Shelf ι τ σ) (i : ι) : Action σ τ := fun s =>
  match shelf.get? i s with
  | none => .error .noObject s
  | some t => .ok t s

def alone (shelf : Shelf ι τ σ) (i : ι) (x : Action τ β) : Action σ β := fun s =>
  match shelf.get? i s with
  | none => .error .noObject s
  | some t =>
    match x t with
    | .ok b t => .ok b (shelf.put i t s)
    | .error f t => .error f (shelf.put i t s)

/-- Replaces the part of a handle by what a computation makes of it; a failing one
leaves it as it is. -/
def update (shelf : Shelf ι τ σ) (i : ι) (f : τ → Except Fault (β × τ)) : Action σ β := fun s =>
  match shelf.get? i s with
  | none => .error .noObject s
  | some t =>
    match f t with
    | .ok (b, t) => .ok b (shelf.put i t s)
    | .error fault => .error fault s

end Shelf
end TschLearning
