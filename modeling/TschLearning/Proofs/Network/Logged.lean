import TschLearning.Proofs.Action.Excused
import TschLearning.Proofs.Mac.Calls
import TschLearning.Proofs.Network.Traced

/-! Networks that write down what they do, in one log: the devices that they set, the numbers that
they draw, and the deliveries that they make, each with its fault if it raised one. Writing them
down changes nothing about a run. -/

namespace TschLearning

variable {μ κ ο σ α : Type}

inductive Deed (μ κ ο α : Type) where
  | set (device : μ) (mac : Mac κ)
  | drawn (u : α)
  | delivered (delivery : Delivery μ κ ο) (fault : Option Fault)

/-- Some handler of an event raised a fault. -/
def Raised (p : List (Deed μ κ ο α) × σ) : Prop := ∃ d f, Deed.delivered d (some f) ∈ p.1

namespace Surroundings

/-- Surroundings that write down what a network does. -/
def logged (env : Surroundings μ κ ο σ α) : Surroundings μ κ ο (List (Deed μ κ ο α) × σ) α where
  macs := {
    get? := fun i p => env.macs.get? i p.2
    put := fun i m p => (p.1 ++ [.set i m], env.macs.put i m p.2) }
  draws := {
    uniform := do
      let u ← env.draws.uniform.outside
      Action.change (· ++ [.drawn u])
      return u
    below := fun n => (env.draws.below n).outside }
  boundary k asn := Action.logged (.delivered (.boundary k asn) ·) (env.boundary k asn)
  outcome k slot channel success :=
    Action.logged (.delivered (.outcome k slot channel success) ·)
      (env.outcome k slot channel success)
  overheard k slot := Action.logged (.delivered (.overheard k slot) ·) (env.overheard k slot)
  observe o r := Action.logged (.delivered (.record o r) ·) (env.observe o r)

variable (env : Surroundings μ κ ο σ α)

@[simp] theorem logged_get? (i : μ) (deeds : List (Deed μ κ ο α)) (s : σ) :
    env.logged.macs.get? i (deeds, s) = env.macs.get? i s := rfl

@[simp] theorem logged_put (i : μ) (m : Mac κ) (deeds : List (Deed μ κ ο α)) (s : σ) :
    env.logged.macs.put i m (deeds, s) = (deeds ++ [.set i m], env.macs.put i m s) := rfl

end Surroundings

namespace Network

open TschLearning.Action

variable [Journal σ] (env : Surroundings μ κ ο σ α)

theorem logged_alike : env.logged.Alike Entered env where
  read i := by
    rintro ⟨deeds, s⟩ _ rfl
    simp only [Shelf.read, env.logged_get?]
    cases env.macs.get? i s with
    | none => exact ⟨rfl, rfl⟩
    | some m => exact ⟨rfl, rfl⟩
  update i f := by
    rintro ⟨deeds, s⟩ _ rfl
    simp only [Shelf.update, env.logged_get?]
    cases env.macs.get? i s with
    | none => exact ⟨rfl, rfl⟩
    | some m =>
      cases hf : f m with
      | error fault =>
        simp only [hf]
        exact ⟨trivial, rfl⟩
      | ok r =>
        simp only [hf]
        exact ⟨trivial, rfl⟩
  uniform := by
    rintro ⟨deeds, s⟩ _ rfl
    simp only [Surroundings.logged, outside, bind, EStateM.bind]
    cases env.draws.uniform s with
    | ok u t => exact ⟨rfl, rfl⟩
    | error f t => exact ⟨rfl, rfl⟩
  boundary _ _ := agree_logged _ _
  outcome _ _ _ _ := agree_logged _ _
  overheard _ _ := agree_logged _ _
  observe _ _ := agree_logged _ _
  note n := agree_note_entered n

omit [Journal σ] in
/-- What an operation comes to in the plain surroundings if it comes to it in those that write
down what is done. -/
theorem eq_ok_of_entered {β : Type} {x : Action (List (Deed μ κ ο α) × σ) β} {y : Action σ β}
    (h : Agree Entered Eq x y) {p q : List (Deed μ κ ο α) × σ} {b : β} (hx : x p = .ok b q) :
    y p.2 = .ok b q.2 := by
  have hends : Ends x p fun c r => c = b ∧ r = q := ends_iff.2 ⟨b, q, hx, rfl, rfl⟩
  obtain ⟨_, _, hy, _, _, -, ⟨rfl, rfl⟩, rfl, rfl⟩ := ends_iff.1 (h.ends rfl hends)
  exact hy

end Network

namespace Action

variable {env : Surroundings μ κ ο σ α} {deeds : List (Deed μ κ ο α)} {s : σ}

omit env in
/-- A delivery is made and written down, or its handler raised a fault. -/
theorem endsOr_delivered {d : Delivery μ κ ο} {x : Action σ Unit}
    {post : Unit → List (Deed μ κ ο α) × σ → Prop}
    (h : ∀ t, x s = .ok () t → post () (deeds ++ [.delivered d none], t)) :
    EndsOr Raised (logged (Deed.delivered d) x) (deeds, s) post := by
  unfold EndsOr
  rw [settles_logged]
  unfold Settles
  cases hx : x s with
  | ok u t => exact h t hx
  | error f t => exact ⟨d, f, by simp⟩

theorem ends_logged_uniform {post : α → List (Deed μ κ ο α) × σ → Prop} :
    Ends env.logged.draws.uniform (deeds, s) post ↔
      Ends env.draws.uniform s fun u t => post u (deeds ++ [.drawn u], t) := by
  simp only [Surroundings.logged, ends_bind, ends_outside, ends_change, ends_pure]

end Action
end TschLearning
