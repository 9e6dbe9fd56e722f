import TschLearning.Proofs.Deployer.Fleet

/-! Rows of edits at several MAC layers. A row that breaks off leaves the tables that its
beginning leads to, and undoing that beginning from its end leads back to the first tables,
with no refusal on the way. -/

namespace TschLearning.Fleet

open TschLearning.Action LinkDeployer

variable {μ κ σ ν : Type} [DecidableEq μ]

/-! ### Rows that fit the tables -/

/-- Every edit fits the tables that those before it leave. -/
def Fitting : (μ → SlotTable) → List (μ × LinkEdit) → Prop
  | _, [] => True
  | tables, p :: plan => p.2.Fits (tables p.1) ∧ Fitting (edited tables p) plan

theorem editedAll_append (tables : μ → SlotTable) (a b : List (μ × LinkEdit)) :
    editedAll tables (a ++ b) = editedAll (editedAll tables a) b := List.foldl_append

theorem fitting_append {tables : μ → SlotTable} {a b : List (μ × LinkEdit)} :
    Fitting tables (a ++ b) ↔ Fitting tables a ∧ Fitting (editedAll tables a) b := by
  induction a generalizing tables with
  | nil => exact ⟨fun h => ⟨trivial, h⟩, And.right⟩
  | cons p a ih =>
    show _ ∧ Fitting (edited tables p) (a ++ b) ↔ (_ ∧ _) ∧ _
    rw [ih, ← and_assoc]
    rfl

theorem editedAll_map (tables : μ → SlotTable) (i : μ) (edits : List LinkEdit) :
    editedAll tables (edits.map fun e => (i, e)) =
      Function.update tables i (LinkEdit.onAll (tables i) edits) := by
  induction edits generalizing tables with
  | nil => exact (Function.update_eq_self i tables).symm
  | cons e edits ih =>
    refine (ih (edited tables (i, e))).trans ?_
    rw [edited_self tables (i, e), edited, Function.update_idem]
    rfl

theorem editedAll_flatMap (tables : μ → SlotTable) {ids : List μ} (hnd : ids.Nodup)
    (edits : List LinkEdit) :
    editedAll tables (ids.flatMap fun i => edits.map fun e => (i, e)) =
      fun i => if i ∈ ids then LinkEdit.onAll (tables i) edits else tables i := by
  induction ids generalizing tables with
  | nil => funext i; simp [editedAll]
  | cons i ids ih =>
    rw [List.nodup_cons] at hnd
    rw [List.flatMap_cons, editedAll_append, editedAll_map, ih _ hnd.2]
    funext j
    by_cases hj : j = i
    · subst hj
      simp [hnd.1]
    · simp [hj]

theorem fitting_map {tables : μ → SlotTable} {i : μ} {edits : List LinkEdit}
    (hc : LinkEdit.Chain (tables i) edits) : Fitting tables (edits.map fun e => (i, e)) := by
  induction edits generalizing tables with
  | nil => exact trivial
  | cons e edits ih =>
    refine ⟨hc.1, ih ?_⟩
    rw [edited_self tables (i, e)]
    exact hc.2

theorem fitting_flatMap {tables : μ → SlotTable} {ids : List μ} (hnd : ids.Nodup)
    {edits : List LinkEdit} (hc : ∀ i ∈ ids, LinkEdit.Chain (tables i) edits) :
    Fitting tables (ids.flatMap fun i => edits.map fun e => (i, e)) := by
  induction ids generalizing tables with
  | nil => exact trivial
  | cons i ids ih =>
    rw [List.nodup_cons] at hnd
    rw [List.flatMap_cons, fitting_append, editedAll_map]
    refine ⟨fitting_map (hc i List.mem_cons_self), ih hnd.2 fun j hj => ?_⟩
    have hne : j ≠ i := fun e => hnd.1 (e ▸ hj)
    rw [Function.update_of_ne hne]
    exact hc j (List.mem_cons_of_mem _ hj)

/-- Edits that fit, taken back from the last on, lead back to the tables in front of them. -/
theorem editedAll_undo {tables : μ → SlotTable} {made : List (μ × LinkEdit)}
    (h : Fitting tables made) : editedAll (editedAll tables made) (made.reverse.map undo) = tables := by
  induction made generalizing tables with
  | nil => rfl
  | cons p made ih =>
    rw [List.reverse_cons, List.map_append, editedAll_append]
    show editedAll (editedAll (editedAll (edited tables p) made) _) _ = tables
    rw [ih h.2]
    exact edited_undo h.1

variable [Journal σ] (f : Fleet μ κ σ ν)

/-- Every edit suits the tables that those before it leave. -/
def SuitsAll : (μ → SlotTable) → List (μ × LinkEdit) → Prop
  | _, [] => True
  | tables, p :: plan => f.Suits tables p ∧ SuitsAll (edited tables p) plan

/-- Every MAC layer has room for its table before, between and after the edits. -/
def RoomyAll : (μ → SlotTable) → List (μ × LinkEdit) → Prop
  | tables, [] => f.Roomy tables
  | tables, p :: plan => f.Roomy tables ∧ RoomyAll (edited tables p) plan

def refused (p : μ × LinkEdit) : MacCall μ := ⟨p.1, p.2.request, some (f.mac p.1).full⟩

/-- A row of edits breaks off in front of one that adds a link without room for it. -/
structure BreaksOff (tables : μ → SlotTable) (plan before : List (μ × LinkEdit))
    (p : μ × LinkEdit) : Prop where
  plan_eq : ∃ after, plan = before ++ p :: after
  isAdd : ∃ slot channel, p.2 = .add slot channel
  noRoom : ¬(f.mac p.1).HasRoom (p.2.on (editedAll tables before p.1))

variable {f} {rest : ν} {tables : μ → SlotTable} {s : σ}

theorem RoomyAll.last {plan : List (μ × LinkEdit)} (h : f.RoomyAll tables plan) :
    f.Roomy (editedAll tables plan) := by
  induction plan generalizing tables with
  | nil => exact h
  | cons p plan ih => exact ih h.2

theorem RoomyAll.first {plan : List (μ × LinkEdit)} (h : f.RoomyAll tables plan) :
    f.Roomy tables := by
  cases plan with
  | nil => exact h
  | cons p plan => exact h.1

theorem roomyAll_append {a b : List (μ × LinkEdit)} :
    f.RoomyAll tables (a ++ b) ↔ f.RoomyAll tables a ∧ f.RoomyAll (editedAll tables a) b := by
  induction a generalizing tables with
  | nil => exact ⟨fun h => ⟨h.first, h⟩, And.right⟩
  | cons p a ih =>
    show f.Roomy tables ∧ f.RoomyAll (edited tables p) (a ++ b) ↔ (_ ∧ _) ∧ _
    rw [ih, ← and_assoc]
    rfl

theorem suitsAll_append {a b : List (μ × LinkEdit)} :
    f.SuitsAll tables (a ++ b) ↔ f.SuitsAll tables a ∧ f.SuitsAll (editedAll tables a) b := by
  induction a generalizing tables with
  | nil => exact ⟨fun h => ⟨trivial, h⟩, And.right⟩
  | cons p a ih =>
    show f.Suits tables p ∧ f.SuitsAll (edited tables p) (a ++ b) ↔ (_ ∧ _) ∧ _
    rw [ih, ← and_assoc]
    rfl

theorem BreaksOff.cons {plan before : List (μ × LinkEdit)} {p q : μ × LinkEdit}
    (h : f.BreaksOff (edited tables q) plan before p) :
    f.BreaksOff tables (q :: plan) (q :: before) p where
  plan_eq := by
    obtain ⟨after, rfl⟩ := h.plan_eq
    exact ⟨after, rfl⟩
  isAdd := h.isAdd
  noRoom := h.noRoom

/-! ### Making edits and taking them back -/

/-- Edits are made up to the first one without room. -/
theorem ends_applyAll {plan : List (μ × LinkEdit)} (h : f.Holds rest tables s)
    (hp : f.SuitsAll tables plan) (hroom : f.Roomy tables) (made : List (μ × LinkEdit))
    (calls : List (MacCall μ)) :
    Ends (applyAll f.access.recording made plan) (calls, s) fun r t =>
      (r = (plan.reverse ++ made, none) ∧ t.1 = calls ++ plan.map accepted ∧
        f.Holds rest (editedAll tables plan) t.2 ∧ f.RoomyAll tables plan) ∨
      ∃ before p, f.BreaksOff tables plan before p ∧
        r = (before.reverse ++ made, some (f.mac p.1).full) ∧
        t.1 = calls ++ before.map accepted ++ [f.refused p] ∧
        f.Holds rest (editedAll tables before) t.2 ∧ f.RoomyAll tables before := by
  induction plan generalizing tables s made calls with
  | nil => exact .inl ⟨rfl, (List.append_nil calls).symm, h, hroom⟩
  | cons p plan ih =>
    unfold applyAll
    rw [edit_recording]
    simp only [ends_bind, ends_refusal?_logged]
    refine (ends_refusal?_edit h hp.1 (hroom p.1 hp.1.mem)).mono ?_
    rintro r t (⟨rfl, hnext, ht⟩ | ⟨rfl, hadd, hno, rfl⟩)
    · refine (ih ht hp.2 (hroom.edited hnext) (p :: made) (calls ++ [accepted p])).mono ?_
      rintro r u (⟨rfl, hc, hu, hr⟩ | ⟨before, q, hb, rfl, hc, hu, hr⟩)
      · exact .inl ⟨by simp, by simp [hc], hu, hroom, hr⟩
      · exact .inr ⟨p :: before, q, hb.cons, by simp, by simp [hc], hu, hroom, hr⟩
    · refine .inr ⟨[], p, ⟨⟨plan, rfl⟩, hadd, hno⟩, rfl, ?_, h, hroom⟩
      simp [refused]

omit [DecidableEq μ] in
theorem undoAll_append (access : MacAccess μ σ) (a b : List (μ × LinkEdit)) :
    undoAll access (a ++ b) = undoAll access a >>= fun _ => undoAll access b := by
  induction a with
  | nil => rfl
  | cons p a ih =>
    simp only [List.cons_append, undoAll, ih, bind_assoc]
    congr 1
    funext r
    cases r with
    | none => rfl
    | some why => simp only [bind_assoc]

theorem ends_undoAll {before : List (μ × LinkEdit)} (h : f.Holds rest (editedAll tables before) s)
    (hp : f.SuitsAll tables before) (hroom : f.RoomyAll tables before)
    (calls : List (MacCall μ)) :
    Ends (undoAll f.access.recording before.reverse) (calls, s) fun _ t =>
      t.1 = calls ++ (before.map undo).reverse.map accepted ∧ f.Holds rest tables t.2 := by
  induction before generalizing tables s calls with
  | nil => exact ⟨(List.append_nil calls).symm, h⟩
  | cons p before ih =>
    rw [List.reverse_cons, undoAll_append, ends_bind]
    refine (ih h hp.2 hroom.2 calls).mono ?_
    rintro _ ⟨calls', t⟩ ⟨rfl, ht⟩
    have hback := edited_undo hp.1.fits
    have hfits := hp.1.undo
    have hundo : (f.mac p.1).HasRoom ((undo p).2.on (edited tables p (undo p).1)) := by
      rw [← edited_self, hback]
      exact hroom.1 p.1 hp.1.mem
    have hedit := ends_edit (p := undo p) ht hfits (hroom.2.first p.1 hp.1.mem) hundo
    rw [hback] at hedit
    show Ends (undoAll _ [(p.1, p.2)]) _ _
    unfold undoAll
    rw [edit_recording]
    simp only [ends_bind, ends_refusal?_logged]
    refine ends_refusal?.2 (.inl (hedit.mono fun _ u hu => ?_))
    refine ⟨?_, hu⟩
    simp [accepted, undo]

theorem suitsAll_of_fitting {plan : List (μ × LinkEdit)} (h : Fitting tables plan)
    (hplan : ∀ p ∈ plan, p.1 ∈ f.ids ∧ (f.mac p.1).Covers p.2.slot p.2.channel) :
    f.SuitsAll tables plan := by
  induction plan generalizing tables with
  | nil => exact trivial
  | cons p plan ih =>
    rw [List.forall_mem_cons] at hplan
    exact ⟨⟨hplan.1.1, h.1, hplan.1.2⟩, ih h.2 hplan.2⟩

end TschLearning.Fleet
