import TschLearning.Proofs.Deployer.Rollback

/-! Deployers of links in step with their MAC layers: every MAC layer has the links that were
deployed last, before and after any deployment. -/

namespace TschLearning.Fleet

open TschLearning.Action LinkDeployer

variable {μ κ σ ν : Type} [DecidableEq μ] [Journal σ] (f : Fleet μ κ σ ν)

/-- The links are within the slotframe of every MAC layer. -/
def CoversAll (links : Links) : Prop :=
  ∀ i ∈ f.ids, ∀ e ∈ links.entries, (f.mac i).Covers e.1 e.2

/-- Every MAC layer has the links that were deployed last. -/
structure InStep (rest : ν) (d : LinkDeployer μ) (s : σ) : Prop where
  macs_eq : d.macs = f.ids
  distinct : d.last.Distinct
  covers : f.CoversAll d.last
  roomy : f.Roomy fun _ => d.last.channel?
  holds : f.Holds rest (fun _ => d.last.channel?) s

def planOf (d : LinkDeployer μ) (links : Links) : List (μ × LinkEdit) :=
  d.plan (LinkEdit.between d.last links)

variable {f} {rest : ν} {d : LinkDeployer μ} {s : σ}

omit [DecidableEq μ] in
theorem covers_of_mem_between {old new : Links} (ho : old.Distinct) (hn : new.Distinct)
    (hold : f.CoversAll old) (hnew : f.CoversAll new) {i : μ} (hi : i ∈ f.ids) {e : LinkEdit}
    (he : e ∈ LinkEdit.between old new) : (f.mac i).Covers e.slot e.channel := by
  have hentry := LinkEdit.entry_of_mem_between he
  cases e with
  | delete s c => exact hold i hi (s, c) ((Links.mem_entries_iff ho s c).2 hentry)
  | add s c => exact hnew i hi (s, c) ((Links.mem_entries_iff hn s c).2 hentry)

omit [DecidableEq μ] in
theorem mem_planOf {links : Links} {q : μ × LinkEdit} :
    q ∈ planOf d links ↔ q.1 ∈ d.macs ∧ q.2 ∈ LinkEdit.between d.last links := by
  unfold planOf LinkDeployer.plan
  simp only [List.mem_flatMap, List.mem_map]
  constructor
  · rintro ⟨i, hi, e, he, rfl⟩
    exact ⟨hi, he⟩
  · exact fun ⟨hi, he⟩ => ⟨q.1, hi, q.2, he, rfl⟩

/-- The edits of a deployment fit MAC layers that have the links that were deployed last, and
would give them the new ones. -/
theorem fitting_planOf (hmacs : d.macs = f.ids) (hd : d.last.Distinct) {links : Links}
    (hl : links.Distinct) {tables : μ → SlotTable}
    (ht : ∀ i ∈ f.ids, tables i = d.last.channel?) :
    Fitting tables (planOf d links) ∧
      ∀ i ∈ f.ids, editedAll tables (planOf d links) i = links.channel? := by
  obtain ⟨hchain, hon⟩ := LinkEdit.chain_between hd hl
  unfold planOf LinkDeployer.plan
  rw [hmacs, editedAll_flatMap tables f.nodup_ids]
  constructor
  · exact fitting_flatMap f.nodup_ids fun i hi => by rwa [ht i hi]
  · intro i hi
    simp only [hi, if_pos, ht i hi, hon]

/-- The plan of a deployment suits the MAC layers, and would give all of them the new links. -/
theorem InStep.suitsAll_planOf (h : f.InStep rest d s) {links : Links} (hl : links.Distinct)
    (hcov : f.CoversAll links) :
    f.SuitsAll (fun _ => d.last.channel?) (planOf d links) ∧
      ∀ i ∈ f.ids, editedAll (fun _ => d.last.channel?) (planOf d links) i = links.channel? := by
  obtain ⟨hfit, hfinal⟩ := fitting_planOf h.macs_eq h.distinct hl fun _ _ => rfl
  refine ⟨suitsAll_of_fitting hfit fun p hp => ?_, hfinal⟩
  obtain ⟨hi, he⟩ := mem_planOf.1 hp
  rw [h.macs_eq] at hi
  exact ⟨hi, covers_of_mem_between h.distinct hl h.covers hcov hi he⟩

omit [DecidableEq μ] in
/-- A deployer that has deployed nothing is in step with MAC layers without links. -/
theorem inStep_create (hmac : ∀ i ∈ f.ids, f.shelf.get? i s = some (f.mac i))
    (hempty : ∀ i ∈ f.ids, (f.mac i).links = .empty) : f.InStep (f.rest s) (.create f.ids) s where
  macs_eq := rfl
  distinct := Links.distinct_empty
  covers _ _ _ he := absurd he List.not_mem_nil
  roomy i _ := (f.mac i).hasRoom_empty
  holds := {
    rest_eq := rfl
    links := fun i hi => by
      refine ⟨.empty, ?_, Links.distinct_empty, rfl⟩
      rw [hmac i hi, ← hempty i hi, Mac.withLinks_links] }

omit [DecidableEq μ] in
theorem Holds.congr {tables tables' : μ → SlotTable} (h : f.Holds rest tables s)
    (he : ∀ i ∈ f.ids, tables i = tables' i) : f.Holds rest tables' s where
  rest_eq := h.rest_eq
  links i hi := by
    rw [← he i hi]
    exact h.links i hi

/-- The calls of a deployment that breaks off: the edits that were made, the one that was
refused, and the first ones taken back from the last on. -/
def callsOfRollback (f : Fleet μ κ σ ν) (before : List (μ × LinkEdit)) (p : μ × LinkEdit) :
    List (MacCall μ) :=
  before.map accepted ++ [f.refused p] ++ (before.map undo).reverse.map accepted

/-- How a deployment of links can come out: its answer, the deployer after it, and its calls. -/
inductive Outcome (f : Fleet μ κ σ ν) (d : LinkDeployer μ) (links : Links) :
    Bool → LinkDeployer μ → List (MacCall μ) → Prop where
  | taken : Outcome f d links true { d with last := links } ((planOf d links).map accepted)
  | givenUp {before : List (μ × LinkEdit)} {p : μ × LinkEdit}
      (h : f.BreaksOff (fun _ => d.last.channel?) (planOf d links) before p) :
      Outcome f d links false { d with failures := d.failures + 1 } (f.callsOfRollback before p)

/-- A deployment either brings the given links to every MAC layer, or is given up and leaves
every one of them with the links that it had; either way the deployer stays in step. -/
theorem InStep.ends_deploy (h : f.InStep rest d s) {links : Links} (hl : links.Distinct)
    (hcov : f.CoversAll links) (calls : List (MacCall μ)) :
    Ends (deploy f.access.recording links) (d, calls, s) fun answer t =>
      f.InStep rest t.1 t.2.2 ∧
        ∃ made, t.2.1 = calls ++ made ∧ f.Outcome d links answer t.1 made := by
  obtain ⟨hsuits, hfinal⟩ := h.suitsAll_planOf hl hcov
  unfold deploy
  simp only [ends_bind, ends_part, ends_outside]
  refine (ends_applyAll h.holds hsuits h.roomy [] calls).mono ?_
  rintro r ⟨calls', t⟩ (⟨rfl, hc, ht, hr⟩ | ⟨before, p, hb, rfl, hc, ht, hr⟩)
  · simp only [ends_bind, ends_change, ends_note, ends_pure]
    refine ⟨f.lawful.obstacle?_eq_none _ _, ?_, _, hc, .taken⟩
    exact {
      macs_eq := h.macs_eq
      distinct := hl
      covers := hcov
      roomy := fun i hi => hfinal i hi ▸ hr.last i hi
      holds := (ht.congr hfinal).enter _ }
  · obtain ⟨after, hplan⟩ := hb.plan_eq
    rw [hplan, suitsAll_append] at hsuits
    simp only [List.append_nil, ends_bind, ends_change, ends_note, ends_outside, ends_pure]
    refine (ends_undoAll ht hsuits.1 hr calls').mono ?_
    rintro _ ⟨calls'', u⟩ ⟨hc', hu⟩
    obtain rfl : calls' = _ := hc
    obtain rfl : calls'' = _ := hc'
    refine ⟨f.lawful.obstacle?_eq_none _ _, ?_, f.callsOfRollback before p, ?_, .givenUp hb⟩
    · exact { h with holds := hu.enter _ }
    · show calls ++ _ ++ _ ++ _ = _
      simp only [callsOfRollback, List.append_assoc]

end TschLearning.Fleet
