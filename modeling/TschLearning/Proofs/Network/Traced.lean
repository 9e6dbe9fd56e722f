import TschLearning.Proofs.Action.Meets
import TschLearning.Proofs.Action.Twin
import TschLearning.Proofs.Mac.Calls
import TschLearning.Proofs.Network.Alike

/-! Networks whose deliveries are written down, each with the states before and after it. Writing
them down changes nothing about a run. -/

namespace TschLearning

inductive Delivery (μ κ ο : Type) where
  | boundary (sink : κ) (asn : Nat)
  | outcome (sink : κ) (slot : Datum) (channel : Int) (success : Bool)
  | overheard (sink : κ) (slot : Datum)
  | record (observer : ο) (r : TransmissionRecord μ)

structure Delivered (μ κ ο σ : Type) where
  delivery : Delivery μ κ ο
  before : σ
  after : σ

/-- Makes a delivery and writes it down. -/
def Action.delivering {μ κ ο σ : Type} (d : Delivery μ κ ο) (x : Action σ Unit) :
    Action (List (Delivered μ κ ο σ) × σ) Unit := fun (trace, s) =>
  match x s with
  | .ok u t => .ok u (trace ++ [⟨d, s, t⟩], t)
  | .error f t => .error f (trace, t)

@[simp] theorem Action.meets_delivering {μ κ ο σ : Type} {lenient : Prop} {d : Delivery μ κ ο}
    {x : Action σ Unit} {l : List (Delivered μ κ ο σ)} {s : σ}
    {post : Unit → List (Delivered μ κ ο σ) × σ → Prop} :
    Meets lenient (delivering d x) (l, s) post ↔
      Meets lenient x s fun u t => post u (l ++ [⟨d, s, t⟩], t) := by
  simp only [Meets, delivering]
  cases x s <;> rfl

theorem Action.twin_delivering {μ κ ο σ τ : Type} {d : Delivery μ κ ο} {x : Action σ Unit}
    {y : Action τ Unit} {l : List (Delivered μ κ ο σ)} {l' : List (Delivered μ κ ο τ)} {s : σ}
    {t : τ}
    {post : Unit → Unit → List (Delivered μ κ ο σ) × σ → List (Delivered μ κ ο τ) × τ → Prop} :
    Twin (delivering d x) (delivering d y) (l, s) (l', t) post ↔
      Twin x y s t fun a b s' t' => post a b (l ++ [⟨d, s, s'⟩], s') (l' ++ [⟨d, t, t'⟩], t') := by
  simp only [Twin, Ends, delivering]
  cases x s with
  | error f s' => exact Iff.rfl
  | ok a s' => cases y t <;> exact Iff.rfl

theorem Action.twin_left_delivering {μ κ ο σ τ γ : Type} {d : Delivery μ κ ο} {x : Action σ Unit}
    {y : Action τ γ} {l : List (Delivered μ κ ο σ)} {s : σ} {t : τ}
    {post : Unit → γ → List (Delivered μ κ ο σ) × σ → τ → Prop} :
    Twin (delivering d x) y (l, s) t post ↔
      Twin x y s t fun a c s' => post a c (l ++ [⟨d, s, s'⟩], s') :=
  meets_delivering

namespace Surroundings

variable {μ κ ο σ α : Type}

/-- Surroundings that write deliveries down. -/
def traced (env : Surroundings μ κ ο σ α) :
    Surroundings μ κ ο (List (Delivered μ κ ο σ) × σ) α where
  macs := {
    get? := fun i p => env.macs.get? i p.2
    put := fun i m p => (p.1, env.macs.put i m p.2) }
  draws := env.draws.outside
  boundary k asn := Action.delivering (.boundary k asn) (env.boundary k asn)
  outcome k slot channel success :=
    Action.delivering (.outcome k slot channel success) (env.outcome k slot channel success)
  overheard k slot := Action.delivering (.overheard k slot) (env.overheard k slot)
  observe o r := Action.delivering (.record o r) (env.observe o r)

end Surroundings

namespace Network

open TschLearning.Action

variable {μ κ ο σ α : Type}

theorem agree_delivering (d : Delivery μ κ ο) (x : Action σ Unit) :
    Agree Entered Eq (delivering d x) x := by
  rintro ⟨trace, s⟩ _ rfl
  simp only [delivering]
  cases x s with
  | ok u t => exact ⟨trivial, rfl⟩
  | error f t => exact ⟨rfl, rfl⟩

theorem agree_outside {γ β : Type} (x : Action σ β) :
    Agree (Entered : List γ × σ → σ → Prop) Eq x.outside x := by
  rintro ⟨trace, s⟩ _ rfl
  simp only [outside]
  cases x s with
  | ok b t => exact ⟨rfl, rfl⟩
  | error f t => exact ⟨rfl, rfl⟩

variable [Journal σ] (env : Surroundings μ κ ο σ α)

theorem traced_alike : env.traced.Alike Entered env where
  read i := by
    rintro ⟨trace, s⟩ _ rfl
    simp only [Shelf.read, Surroundings.traced]
    cases env.macs.get? i s with
    | none => exact ⟨rfl, rfl⟩
    | some m => exact ⟨rfl, rfl⟩
  update i f := by
    rintro ⟨trace, s⟩ _ rfl
    simp only [Shelf.update, Surroundings.traced]
    cases env.macs.get? i s with
    | none => exact ⟨rfl, rfl⟩
    | some m =>
      cases hf : f m with
      | error fault =>
        simp only [hf]
        exact ⟨trivial, rfl⟩
      | ok r =>
        simp only [hf]
        exact ⟨trivial, rfl⟩
  uniform := agree_outside _
  boundary _ _ := agree_delivering _ _
  outcome _ _ _ _ := agree_delivering _ _
  overheard _ _ := agree_delivering _ _
  observe _ _ := agree_delivering _ _
  note n := agree_note_entered n

variable [Arith α] [DecidableEq μ] [DecidableEq κ]

theorem runSlots_of_traced {n : Nat} {net net' : Network μ ο α} {s t : σ}
    {trace : List (Delivered μ κ ο σ)}
    (h : runSlots env.traced n (net, [], s) = .ok () (net', trace, t)) :
    runSlots env n (net, s) = .ok () (net', t) := by
  obtain ⟨t', hrun, ht⟩ := runSlots_of_alike (traced_alike env) rfl h
  obtain rfl : t = t' := ht
  exact hrun

end Network
end TschLearning
