import TschLearning.Journal
import TschLearning.Ranking

/-! Notifiers: whoever subscribes is called each time the notifier is triggered, the
higher priorities first. -/

namespace TschLearning

/-- The priority of a subscriber: a number, or else a text or nothing, which have an order only
among their own kind. -/
inductive Priority where
  | number (n : Number)
  | text (s : String)
  | none

namespace Priority

def ofDatum? : Datum → Option Priority
  | .null => some .none
  | .text s => some (.text s)
  | .list _ | .dict _ => Option.none
  | d => d.number?.map .number

def comparable : Priority → Priority → Bool
  | .number _, .number _ => true
  | .text _, .text _ => true
  | .none, .none => true
  | _, _ => false

def lt : Priority → Priority → Bool
  | .number a, .number b => a.lt b
  | .text a, .text b => decide (a < b)
  | _, _ => false

/-- Whether a priority has a place among those of its kind, which an undefined number has not. -/
def isPlaced : Priority → Bool
  | .number n => n.same n
  | _ => true

/-- Whether two priorities are the same. One that is not a number is the same as none. -/
def same : Priority → Priority → Bool
  | .number a, .number b => a.same b
  | .text a, .text b => a == b
  | .none, .none => true
  | _, _ => false

theorem lt_int (i j : Int) : lt (.number (.int i)) (.number (.int j)) = decide (i < j) :=
  Number.lt_int i j

theorem same_int (i j : Int) : same (.number (.int i)) (.number (.int j)) = decide (i = j) :=
  Number.same_int i j

end Priority

/-- A notifier; `κ` are the handles of subscribers. -/
structure Notifier (κ : Type) where
  name : Datum
  owner : String
  -- the subscribers of each priority, the priorities as they were first given. A priority stays
  -- when its last subscriber has gone
  ranks : List (Priority × List κ)
  -- those who subscribed with something that can be no priority. They are never called
  strays : List κ
  -- the calls that are made ever since a priority of another kind was given
  frozen : Option (List κ)

namespace Notifier

variable {κ σ : Type}

def create (name : Datum) (owner : String) : Notifier κ :=
  { name, owner, ranks := [], strays := [], frozen := none }

def label (n : Notifier κ) : String := n.owner ++ "Notifier('" ++ n.name.spoken ++ "')"

/-- The subscribers in the order in which they are called, the higher priorities first. -/
def ordered (ranks : List (Priority × List κ)) : List κ :=
  (Ranking.descending (·.1.isPlaced) (fun a b => a.1.lt b.1) ranks).flatMap (·.2)

theorem ordered_perm (ranks : List (Priority × List κ)) :
    (ordered ranks).Perm (ranks.flatMap (·.2)) :=
  (Ranking.perm_descending _ _ ranks).flatMap_right _

/-- Those who are called, in order. -/
def callees (n : Notifier κ) : List κ := n.frozen.getD (ordered n.ranks)

def enlist (callee : κ) (priority : Priority) :
    List (Priority × List κ) → List (Priority × List κ)
  | [] => [(priority, [callee])]
  | (p, members) :: rest =>
    if p.same priority then (p, members ++ [callee]) :: rest
    else (p, members) :: enlist callee priority rest

theorem enlist_perm (callee : κ) (priority : Priority) (ranks : List (Priority × List κ)) :
    ((enlist callee priority ranks).flatMap (·.2)).Perm (callee :: ranks.flatMap (·.2)) := by
  induction ranks with
  | nil => exact .refl _
  | cons r rest ih =>
    simp only [enlist]
    split
    · rw [List.flatMap_cons, List.flatMap_cons, List.append_assoc]
      exact List.perm_middle
    · rw [List.flatMap_cons, List.flatMap_cons]
      exact (ih.append_left r.2).trans List.perm_middle

/-- The notifier with another subscriber. If the priority has no order among the others, the
calls stay what they are. -/
def place (n : Notifier κ) (callee : κ) (priority : Priority) : Notifier κ :=
  { n with
    ranks := enlist callee priority n.ranks
    frozen :=
      if n.ranks.head?.all (priority.comparable ·.1) then n.frozen else some n.callees }

/-- The first subscriber of a notifier is the only one that is called. -/
theorem callees_place_create (name : Datum) (owner : String) (callee : κ) (priority : Priority) :
    ((create name owner).place callee priority).callees = [callee] :=
  List.perm_singleton.1 (ordered_perm _)

/-- Refuses a notifier whose priorities have no order. -/
def checkOrder : Action (Notifier κ) Unit := do
  if (← get).frozen.isSome then throw .incomparable

variable [DecidableEq κ]

def isSubscribed (n : Notifier κ) (callee : κ) : Bool :=
  n.ranks.any (·.2.contains callee) || n.strays.contains callee

/-- Subscribes; nobody can be subscribed twice. -/
def subscribe (callee : κ) (priority : Datum) : Action (Notifier κ) Unit := do
  if (← get).isSubscribed callee then throw (.violated "")
  match Priority.ofDatum? priority with
  | some p =>
    modify (·.place callee p)
    checkOrder
  | none =>
    modify fun n => { n with strays := callee :: n.strays }
    throw .unhashable

def dismiss (callee : κ) (ranks : List (Priority × List κ)) : List (Priority × List κ) :=
  ranks.map fun r => (r.1, r.2.filter fun c => c ≠ callee)

def unsubscribe (callee : κ) : Action (Notifier κ) Unit := do
  let n ← get
  if !n.isSubscribed callee then throw (.violated "")
  set { n with
    ranks := dismiss callee n.ranks
    strays := n.strays.filter fun c => c ≠ callee }
  if n.strays.contains callee then throw .unhashable
  checkOrder

omit [DecidableEq κ] in
/-- Calls the subscribers in order. The value is shown in the journal. -/
def trigger [Journal σ] (n : Notifier κ) (value : Datum) (call : κ → Action σ Unit) :
    Action σ Unit := do
  Action.note (.ofComponent .simulation n.label (.triggered value))
  n.callees.forM call

end Notifier
end TschLearning
