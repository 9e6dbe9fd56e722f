import TschLearning.Proofs.Deployer.InStep

/-! Deployments of any links at MAC layers that have any links. A row of edits is made up to the
first one that is refused or fails. After a refusal the beginning of the row is taken back, after
a failure it is not. -/

namespace TschLearning.Fleet

open TschLearning.Action LinkDeployer

variable {μ κ σ ν : Type} [DecidableEq μ] [Journal σ] (f : Fleet μ κ σ ν)

/-- Every edit is admitted, and there is room for the tables on the way. -/
structure Passes (tables : μ → SlotTable) (plan : List (μ × LinkEdit)) : Prop where
  admits : ∀ p ∈ plan, (f.mac p.1).Admits p.2
  roomy : f.RoomyAll tables plan

/-- How far a row of edits comes: all of them are made, or those before the first one that is
refused or fails. -/
inductive Progress (rest : ν) (tables : μ → SlotTable) (plan made : List (μ × LinkEdit)) :
    Except Fault (List (μ × LinkEdit) × Option Fault) → σ → Prop where
  | all {t : σ} (hpasses : f.Passes tables plan) (holds : f.Holds rest (editedAll tables plan) t) :
      Progress rest tables plan made (.ok (plan.reverse ++ made, none)) t
  | refused {t : σ} (before : List (μ × LinkEdit)) {p : μ × LinkEdit}
      {after : List (μ × LinkEdit)} (hplan : plan = before ++ p :: after)
      (hpasses : f.Passes tables before)
      (hroom : ¬(f.mac p.1).HasRoom (p.2.on (editedAll tables before p.1)))
      (holds : f.Holds rest (editedAll tables before) t) :
      Progress rest tables plan made (.ok (before.reverse ++ made, some (f.mac p.1).full)) t
  | failed {t : σ} (before : List (μ × LinkEdit)) {p : μ × LinkEdit}
      {after : List (μ × LinkEdit)} {why : Fault} (hplan : plan = before ++ p :: after)
      (hpasses : f.Passes tables before) (hwhy : (f.mac p.1).admission p.2 = .error why)
      (holds : f.Holds rest (editedAll tables before) t) :
      Progress rest tables plan made (.error why) t

variable {f} {rest : ν} {tables : μ → SlotTable} {p : μ × LinkEdit}
  {plan made : List (μ × LinkEdit)} {s : σ}

theorem Passes.nil (hroomy : f.Roomy tables) : f.Passes tables [] :=
  ⟨fun _ hp => absurd hp List.not_mem_nil, hroomy⟩

theorem Passes.tail (h : f.Passes tables (p :: plan)) : f.Passes (edited tables p) plan :=
  ⟨(List.forall_mem_cons.1 h.admits).2, h.roomy.2⟩

theorem Passes.cons (hroomy : f.Roomy tables) (hadmits : (f.mac p.1).Admits p.2)
    (h : f.Passes (edited tables p) plan) : f.Passes tables (p :: plan) where
  admits := List.forall_mem_cons.2 ⟨hadmits, h.admits⟩
  roomy := ⟨hroomy, h.roomy⟩

theorem Progress.cons (hroomy : f.Roomy tables) (hadmits : (f.mac p.1).Admits p.2)
    {outcome : Except Fault (List (μ × LinkEdit) × Option Fault)}
    (h : f.Progress rest (edited tables p) plan (p :: made) outcome s) :
    f.Progress rest tables (p :: plan) made outcome s := by
  cases h with
  | all hpasses holds =>
    have hall : f.Progress rest tables (p :: plan) made (.ok ((p :: plan).reverse ++ made, none)) s :=
      .all (hpasses.cons hroomy hadmits) holds
    simpa using hall
  | @refused _ before q after hplan hpasses hroom holds =>
    subst hplan
    have hrefused : f.Progress rest tables (p :: (before ++ q :: after)) made
        (.ok ((p :: before).reverse ++ made, some (f.mac q.1).full)) s :=
      .refused (p :: before) rfl (hpasses.cons hroomy hadmits) hroom holds
    simpa using hrefused
  | failed before hplan hpasses hwhy holds =>
    subst hplan
    exact .failed (p :: before) rfl (hpasses.cons hroomy hadmits) hwhy holds

/-! ### Making edits -/

/-- Edits are made up to the first one that is refused or fails. -/
theorem settles_applyAll (h : f.Holds rest tables s) (hroomy : f.Roomy tables)
    (hplan : ∀ p ∈ plan, p.1 ∈ f.ids) (made : List (μ × LinkEdit)) :
    Settles (applyAll f.access made plan) s (f.Progress rest tables plan made) := by
  induction plan generalizing tables s made with
  | nil => exact .all (.nil hroomy) h
  | cons p plan ih =>
    rw [List.forall_mem_cons] at hplan
    unfold applyAll
    simp only [settles_bind, settles_refusal?]
    by_cases hadmits : (f.mac p.1).Admits p.2
    · refine (settles_edit_of_admits h hplan.1 (hroomy p.1 hplan.1) hadmits).mono ?_
      rintro _ t (⟨rfl, hroom, ht⟩ | ⟨rfl, hroom, rfl⟩)
      · refine (ih ht (hroomy.edited hroom) hplan.2 (p :: made)).mono ?_
        exact fun _ _ => Progress.cons hroomy hadmits
      · exact .refused [] rfl (.nil hroomy) hroom h
    · obtain ⟨why, hwhy, hrefusal⟩ := Mac.admission_eq_error hadmits
      refine (settles_edit_of_admission h hplan.1 hwhy).mono ?_
      rintro _ t ⟨rfl, rfl⟩
      simp only [hrefusal, Bool.false_eq_true, if_false]
      exact .failed [] rfl (.nil hroomy) hwhy h

/-! ### Taking edits back -/

/-- Taking edits back ends if they are admitted, and leads back to the tables in front of them if
they fitted those. -/
theorem ends_undoAll_of_admits {before : List (μ × LinkEdit)}
    (h : f.Holds rest (editedAll tables before) s) (hpasses : f.Passes tables before)
    (hids : ∀ p ∈ before, p.1 ∈ f.ids) (hadmits : ∀ p ∈ before, (f.mac p.1).Admits p.2.undo) :
    Ends (undoAll f.access before.reverse) s fun _ t =>
      ∃ back, f.Roomy back ∧ f.Holds rest back t ∧ (Fitting tables before → back = tables) := by
  induction before generalizing tables s with
  | nil => exact ⟨tables, hpasses.roomy, h, fun _ => rfl⟩
  | cons p before ih =>
    rw [List.forall_mem_cons] at hids hadmits
    rw [List.reverse_cons, undoAll_append, ends_bind]
    refine (ih h hpasses.tail hids.2 hadmits.2).mono ?_
    rintro _ t ⟨back, hroomy, ht, hback⟩
    -- the last step back is made if the others have led to the tables behind the first edit
    have hlast : Fitting tables (p :: before) → edited back (undo p) = tables := by
      intro hfit
      rw [hback hfit.2]
      exact edited_undo hfit.1
    show Ends (undoAll _ [(p.1, p.2)]) _ _
    unfold undoAll
    rw [ends_bind]
    refine ends_of_settles (settles_refusal?.2 ?_)
    refine (settles_edit_of_admits (p := undo p) ht hids.1 (hroomy p.1 hids.1) hadmits.1).mono ?_
    rintro _ u (⟨rfl, hroom, hu⟩ | ⟨rfl, hroom, rfl⟩)
    · exact ⟨none, rfl, _, hroomy.edited hroom, hu, hlast⟩
    · refine ⟨_, rfl, ?_⟩
      simp only [ends_bind, ends_note]
      refine ⟨f.lawful.obstacle?_eq_none _ _, back, hroomy, ht.enter _, fun hfit => ?_⟩
      refine absurd ?_ hroom
      have hlast := hlast hfit
      rw [← edited_self, hlast]
      exact hpasses.roomy.1 p.1 hids.1

end TschLearning.Fleet
