import Mathlib.Algebra.Ring.Int.Defs
import TschLearning.Proofs.Network.Watched
import TschLearning.Scenario.SlotSelection

/-! Stars in which every delivery is written down, together with the frames that have left the
queues by then. -/

namespace TschLearning

namespace Delivery

variable {μ κ ο : Type}

/-- The delivery tells a scheduler of a success. -/
def Confirms (k : κ) : Delivery μ κ ο → Prop
  | .outcome sink _ _ success => sink = k ∧ success = true
  | _ => False

def slot : Delivery μ κ ο → Int
  | .outcome _ (.int slot) _ _ => slot
  | _ => 0

/-- The delivery tells a scheduler of an outcome. -/
def Tells (k : κ) : Delivery μ κ ο → Prop
  | .outcome sink _ _ _ => sink = k
  | _ => False

theorem Confirms.tells {k : κ} {d : Delivery μ κ ο} (h : d.Confirms k) : d.Tells k := by
  cases d with
  | outcome sink slot channel success => exact h.1
  | _ => exact h

instance [DecidableEq κ] (k : κ) (d : Delivery μ κ ο) : Decidable (d.Confirms k) :=
  match d with
  | .outcome sink _ _ success => inferInstanceAs (Decidable (sink = k ∧ success = true))
  | .boundary .. | .overheard .. | .record .. => inferInstanceAs (Decidable False)

instance [DecidableEq κ] (k : κ) (d : Delivery μ κ ο) : Decidable (d.Tells k) :=
  match d with
  | .outcome sink .. => inferInstanceAs (Decidable (sink = k))
  | .boundary .. | .overheard .. | .record .. => inferInstanceAs (Decidable False)

end Delivery

namespace Star

variable {ρ α : Type}

/-- A star with the frames that have left its queues. -/
abbrev Watched (ρ α : Type) := List (Nat × Frame) × Star ρ α

/-- A delivery in a star that is watched. -/
abbrev Event (ρ α : Type) := Delivered Nat Nat Unit (Watched ρ α)

def overSuccesses (k : Nat) (f : Event ρ α → Int) (trace : List (Event ρ α)) : Int :=
  ((trace.filter (·.delivery.Confirms k)).map f).sum

theorem overSuccesses_concat (k : Nat) (f : Event ρ α → Int) (trace : List (Event ρ α))
    (e : Event ρ α) :
    overSuccesses k f (trace ++ [e])
      = overSuccesses k f trace + if e.delivery.Confirms k then f e else 0 := by
  unfold overSuccesses
  rw [List.filter_append, List.map_append, List.sum_append]
  by_cases he : e.delivery.Confirms k <;> simp [he]

theorem overSuccesses_append {k : Nat} (f : Event ρ α → Int) (trace : List (Event ρ α))
    {d : List (Event ρ α)} (hd : ∀ e ∈ d, ¬e.delivery.Confirms k) :
    overSuccesses k f (trace ++ d) = overSuccesses k f trace := by
  have hnone : d.filter (·.delivery.Confirms k) = [] := by
    rw [List.filter_eq_nil_iff]
    exact fun e he => by simpa using hd e he
  unfold overSuccesses
  rw [List.filter_append, hnone, List.append_nil]

variable {i j k : Nat} {s : Star ρ α} {mac : Mac Nat} {a : SlotSelection Nat α} {g : ρ}

theorem getElem?_put_self (hmac : s.macs[i]? = some mac) (mac' : Mac Nat) :
    (shelf.put i mac' s).macs[i]? = some mac' :=
  Array.getElem?_setIfInBounds_self_of_lt (Array.getElem?_eq_some_iff.1 hmac).1

theorem getElem?_put_of_ne (hji : j ≠ i) (mac' : Mac Nat) (s : Star ρ α) :
    (shelf.put j mac' s).macs[i]? = s.macs[i]? :=
  Array.getElem?_setIfInBounds_ne hji

theorem schedulers_put_self (hk : s.schedulers[k]? = some (a, g)) (e : SlotSelection Nat α × ρ) :
    (schedulerShelf.put k e s).schedulers[k]? = some e :=
  Array.getElem?_setIfInBounds_self_of_lt (Array.getElem?_eq_some_iff.1 hk).1

theorem schedulers_put_of_ne (hjk : j ≠ k) (e : SlotSelection Nat α × ρ) (s : Star ρ α) :
    (schedulerShelf.put j e s).schedulers[k]? = s.schedulers[k]? :=
  Array.getElem?_setIfInBounds_ne hjk

end Star
end TschLearning
