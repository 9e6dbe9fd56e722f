import TschLearning.Proofs.Action.Store
import TschLearning.Proofs.Deployer.Configurations
import TschLearning.Proofs.Mac.Edits
import Mathlib.Logic.Function.Basic

/-! Deployments of whole slotframes. MAC layers of one slotframe accept every configuration of
it, so such a deployment is never refused. -/

namespace TschLearning

/-- The parts under some handles are the given ones, and so is what the state holds beside
them. -/
structure Shelf.Shows {ι τ σ ν : Type} (shelf : Shelf ι τ σ) (rest : σ → ν) (ids : List ι)
    (part : ι → τ) (r : ν) (s : σ) : Prop where
  rest_eq : rest s = r
  get?_eq : ∀ i ∈ ids, shelf.get? i s = some (part i)

namespace Shelf.Shows

variable {ι τ σ ν : Type} [DecidableEq ι] [Journal σ] {shelf : Shelf ι τ σ} {rest : σ → ν}
  {ids : List ι} {part : ι → τ} {r : ν} {s : σ}

theorem put (hlaw : shelf.Lawful rest) (h : shelf.Shows rest ids part r s) {i : ι} (hi : i ∈ ids)
    (u : τ) : shelf.Shows rest ids (Function.update part i u) r (shelf.put i u s) where
  rest_eq := (hlaw.rest_put i u s).trans h.rest_eq
  get?_eq j hj := by
    by_cases he : j = i
    · subst he
      rw [Function.update_self]
      exact hlaw.get?_put_self (h.get?_eq j hj) u
    · rw [Function.update_of_ne he, hlaw.get?_put_of_ne he]
      exact h.get?_eq j hj

omit [DecidableEq ι] in
theorem enter (hlaw : shelf.Lawful rest) (h : shelf.Shows rest ids part r s) (n : Note) :
    shelf.Shows rest ids part r (Journal.enter n s) where
  rest_eq := (hlaw.rest_enter n s).trans h.rest_eq
  get?_eq i hi := (hlaw.get?_enter i n s).trans (h.get?_eq i hi)

end Shelf.Shows

namespace Mac

variable {κ : Type}

def withSequence (m : Mac κ) (channels : List Int) : Mac κ := { m with sequence := some channels }

/-- The hopping sequence is one for the slotframe of the MAC layer. -/
def Accepts (channels : List Int) (m : Mac κ) : Prop :=
  m.checkSequence (Datum.ofInts channels) = .ok channels

theorem Accepts.withSequence {channels : List Int} {m : Mac κ} (h : m.Accepts channels)
    (other : List Int) : (m.withSequence other).Accepts channels := h

/-- A channel below the given bound for every one of so many slots. -/
def InSlotframe (slots channels : Int) (cs : List Int) : Prop :=
  (cs.length : Int) = slots ∧ ∀ c ∈ cs, 0 ≤ c ∧ c < channels

instance (slots channels : Int) (cs : List Int) : Decidable (InSlotframe slots channels cs) :=
  inferInstanceAs (Decidable (_ ∧ _))

theorem accepts_of_inSlotframe {m : Mac κ} {slots channels : Int} (hs : m.slots = .int slots)
    (hc : m.channels = .int channels) {cs : List Int} (h : InSlotframe slots channels cs) :
    m.Accepts cs := by
  obtain ⟨hlen, hcs⟩ := h
  have hlength : Datum.same (.int (Datum.ofInts cs).length) m.slots = true := by
    rw [hs, Datum.ofInts, List.length_map, hlen, Datum.same_int]
    exact decide_eq_true rfl
  have hitem : ∀ c ∈ cs, m.checkChannel (.int c) = .ok c.toNat := by
    intro c hmem
    rw [checkChannel, hc, checkIndexBelow_int]
    exact checkIndex_int_of_lt _ _ (hcs c hmem).1 (hcs c hmem).2
  have hitems : (Datum.ofInts cs).mapM m.checkChannel = .ok (cs.map Int.toNat) := by
    clear hlen hlength hcs
    induction cs with
    | nil => rfl
    | cons c rest ih =>
      rw [List.forall_mem_cons] at hitem
      have hrest := ih hitem.2
      rw [Datum.ofInts] at hrest
      rw [Datum.ofInts, List.map_cons, List.mapM_cons, hitem.1, hrest]
      rfl
  have hback : (cs.map Int.toNat).map Int.ofNat = cs := by
    rw [List.map_map]
    refine (List.map_congr_left fun c hmem => ?_).trans (List.map_id cs)
    exact Int.toNat_of_nonneg (hcs c hmem).1
  simp only [Accepts, checkSequence, hlength, hitems, bind, Except.bind]
  exact congrArg Except.ok hback

end Mac

namespace SequenceDeployer

open TschLearning.Action TschLearning.Shelf

variable {μ κ σ ν : Type} [DecidableEq μ] [Journal σ] {shelf : Shelf μ (Mac κ) σ} {rest : σ → ν}
  (hlaw : shelf.Lawful rest) (labels : μ → String) {ids : List μ} {mac : μ → Mac κ} {r : ν} {s : σ}
  {channels : List Int}

include hlaw

theorem ends_checkAll (h : shelf.Shows rest ids mac r s)
    (hacc : ∀ i ∈ ids, (mac i).Accepts channels)
    {todo : List μ} (htodo : todo ⊆ ids) :
    Ends (checkAll (Mac.access shelf labels) channels todo) s fun refusal t =>
      refusal = none ∧ shelf.Shows rest ids mac r t := by
  induction todo generalizing s with
  | nil => exact ⟨rfl, h⟩
  | cons i todo ih =>
    rw [List.cons_subset] at htodo
    unfold checkAll
    simp only [ends_bind, ends_refusal?]
    refine .inl ?_
    simp only [Mac.access, ends_update]
    refine ⟨mac i, (), mac i, h.get?_eq i htodo.1, ?_, ?_⟩
    · rw [hacc i htodo.1]
      rfl
    · have hnext := h.put hlaw htodo.1 (mac i)
      rw [Function.update_eq_self] at hnext
      exact ih hnext htodo.2

theorem ends_setAll (h : shelf.Shows rest ids mac r s) (hacc : ∀ i ∈ ids, (mac i).Accepts channels)
    {todo : List μ} (htodo : todo ⊆ ids) :
    Ends (setAll (Mac.access shelf labels) channels todo) s fun e t =>
      e.2 = none ∧
        shelf.Shows rest ids
          (fun i => if i ∈ todo then (mac i).withSequence channels else mac i) r t := by
  induction todo generalizing s mac with
  | nil => exact ⟨rfl, by simpa using h⟩
  | cons i todo ih =>
    rw [List.cons_subset] at htodo
    unfold setAll
    simp only [ends_bind, ends_refusal?]
    refine .inl ?_
    simp only [Mac.access, ends_update]
    refine ⟨mac i, (), (mac i).withSequence channels, h.get?_eq i htodo.1, ?_, ?_⟩
    · rw [Mac.setSequence, hacc i htodo.1]
      rfl
    · have hnext := h.put hlaw htodo.1 ((mac i).withSequence channels)
      have haccNext : ∀ j ∈ ids, (Function.update mac i ((mac i).withSequence channels) j).Accepts
          channels := by
        intro j hj
        by_cases he : j = i
        · subst he
          rw [Function.update_self]
          exact (hacc j hj).withSequence channels
        · rw [Function.update_of_ne he]
          exact hacc j hj
      refine (ih hnext haccNext htodo.2).mono ?_
      rintro ⟨updated, refusal⟩ t ⟨rfl, ht⟩
      refine ⟨rfl, { ht with get?_eq := fun j hj => (ht.get?_eq j hj).trans ?_ }⟩
      by_cases he : j = i
      · subst he
        simp [Mac.withSequence]
      · simp [he]

theorem ends_deploy {d : SequenceDeployer μ} (h : shelf.Shows rest d.macs mac r s)
    (hacc : ∀ i ∈ d.macs, (mac i).Accepts channels) :
    Ends (deploy (Mac.access shelf labels) ⟨channels⟩) (d, s) fun answer t =>
      answer = true ∧ t.1.macs = d.macs ∧
        shelf.Shows rest d.macs (fun i => (mac i).withSequence channels) r t.2 := by
  unfold deploy
  simp only [ends_bind, ends_part, ends_outside]
  refine (ends_checkAll hlaw labels h hacc (List.Subset.refl _)).mono ?_
  rintro refusal t ⟨rfl, ht⟩
  simp only [ends_bind, ends_outside]
  refine (ends_setAll hlaw labels ht hacc (List.Subset.refl _)).mono ?_
  rintro ⟨updated, refusal⟩ u ⟨rfl, hu⟩
  simp only [ends_bind, ends_change, ends_note, ends_pure]
  refine ⟨hlaw.obstacle?_eq_none _ _, trivial, rfl, ?_⟩
  refine Shows.enter hlaw { hu with get?_eq := fun i hi => ?_ } _
  rw [hu.get?_eq i hi, if_pos hi]

end SequenceDeployer

namespace Deployer

open TschLearning.Action

variable {μ σ : Type} [Journal σ] {access : MacAccess μ σ} {s : σ}

theorem ends_deploy_sequence {d : SequenceDeployer μ} {channels : List Int}
    {post : Bool → Deployer μ × σ → Prop} :
    Ends (deploy access (.channels (Datum.ofInts channels))) (.sequence d, s) post ↔
      Ends (SequenceDeployer.deploy access ⟨channels⟩) (d, s)
        fun b t => post b (.sequence t.1, t.2) :=
  ends_deploy_given (c := .row channels)

end Deployer
end TschLearning
