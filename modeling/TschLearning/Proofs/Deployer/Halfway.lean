import TschLearning.Proofs.Deployer.Courses

/-! Deployments of links that raise a fault. Edits are taken back after a refusal only, so those in
front of an edit beyond the slotframe stay made, and the MAC layers are left with them while the
deployer keeps to the links that it had deployed before. -/

namespace TschLearning.Fleet

open TschLearning.Action

variable {μ κ σ ν : Type} [DecidableEq μ] [Journal σ] {f : Fleet μ κ σ ν} {rest : ν}
  {d : LinkDeployer μ} {links : Links} {s t : σ}

omit [DecidableEq μ] in
/-- MAC layers have one table each. -/
theorem Holds.tables_eq {tables tables' : μ → SlotTable} (h : f.Holds rest tables t)
    (h' : f.Holds rest tables' t) {i : μ} (hi : i ∈ f.ids) : tables i = tables' i := by
  obtain ⟨l, hl, -, ht⟩ := h.links i hi
  obtain ⟨l', hl', -, ht'⟩ := h'.links i hi
  rw [hl, Option.some.injEq] at hl'
  have hlinks : l = l' := congrArg Mac.links hl'
  rw [← ht, ← ht', hlinks]

omit [Journal σ] in
/-- The edits that a deployment begins with leave their mark: the channel that the last of them
gives to its slot is not the one that the slot had. -/
theorem exists_ne_of_begun {before after : List (μ × LinkEdit)}
    (hplan : planOf d links = before ++ after) (hne : before ≠ []) (tables : μ → SlotTable) :
    ∃ q ∈ before, editedAll tables before q.1 q.2.slot ≠ d.last.channel? q.2.slot := by
  obtain hnil | ⟨others, q, rfl⟩ := List.eq_nil_or_concat before
  · exact absurd hnil hne
  rw [List.concat_eq_append] at hplan ⊢
  have hq : q ∈ planOf d links := by
    rw [hplan]
    exact List.mem_append_left _ (List.mem_append_right _ List.mem_cons_self)
  obtain ⟨-, he⟩ := mem_planOf.1 hq
  refine ⟨q, List.mem_append_right _ List.mem_cons_self, ?_⟩
  rw [editedAll_append]
  show edited (editedAll tables others) q q.1 q.2.slot ≠ _
  rw [edited_self]
  exact LinkEdit.on_ne_of_mem_between he _

/-- A deployment that raises a fault leaves the deployer as it was. If the configuration stands for
no links, nothing else has happened either. Otherwise an edit was beyond the slotframe of its MAC
layer, and the edits in front of the first such one stay made: the MAC layers have the links that
they had if and only if there are none. -/
theorem deploy_raised {slots channels : μ → Int}
    (hslots : ∀ i ∈ f.ids, (f.mac i).slots = .int (slots i))
    (hchannels : ∀ i ∈ f.ids, (f.mac i).channels = .int (channels i)) (h : f.InStep rest d s)
    {configuration : Configuration} {why : Fault} {deployer : Deployer μ}
    (hraised : Deployer.deploy f.access configuration (.links d, s) = .error why (deployer, t)) :
    deployer = .links d ∧
      match configuration.links with
      | .error fault => why = fault ∧ t = s
      | .ok links =>
        ∃ before i e after, planOf d links = before ++ (i, e) :: after ∧
          (∀ q ∈ before, (f.mac q.1).Admits q.2) ∧
          (¬(0 ≤ e.slot ∧ e.slot < slots i) ∧
              why = .indexOutOfRange (possessive Mac.ownerLabel) "slot" e.slot (.int (slots i)) ∨
            e = .add e.slot e.channel ∧ ¬(0 ≤ e.channel ∧ e.channel < channels i) ∧
              why = .indexOutOfRange (possessive Mac.ownerLabel) "channel" e.channel
                (.int (channels i))) ∧
          f.Holds rest (editedAll (fun _ => d.last.channel?) before) t ∧
          (f.Holds rest (fun _ => d.last.channel?) t ↔ before = []) := by
  cases hlinks : configuration.links with
  | error fault =>
    have hsettles : Settles (Deployer.deploy f.access configuration) (.links d, s) fun outcome t =>
        outcome = .error fault ∧ t = (.links d, s) := by
      rw [Deployer.settles_deploy_links, hlinks]
      exact ⟨rfl, rfl⟩
    obtain ⟨hwhy, ht⟩ := hsettles.error hraised
    cases hwhy
    cases ht
    exact ⟨rfl, rfl, rfl⟩
  | ok links =>
    have hsettles : Settles (Deployer.deploy f.access configuration) (.links d, s) fun outcome u =>
        ∃ d', u.1 = .links d' ∧
          f.Course rest d (fun _ => d.last.channel?) links outcome d' u.2 := by
      rw [Deployer.settles_deploy_links, hlinks]
      exact (h.facing.settles_deploy links).mono fun _ u hcourse => ⟨u.1, rfl, hcourse⟩
    obtain ⟨d', rfl, hcourse⟩ := hsettles.error hraised
    cases hcourse with
    | @brokenOff _ before p after _ hplan hpasses hwhy holds =>
      obtain ⟨i, e⟩ := p
      have hids : ∀ q ∈ before ++ (i, e) :: after, q.1 ∈ f.ids := by
        intro q hq
        rw [← hplan] at hq
        exact h.macs_eq ▸ (mem_planOf.1 hq).1
      have hi : i ∈ f.ids := hids (i, e) (List.mem_append_right _ List.mem_cons_self)
      refine ⟨rfl, before, i, e, after, hplan, hpasses.admits,
        Mac.outOfRange_of_admission (hslots i hi) (hchannels i hi) hwhy, holds, fun hsame => ?_, ?_⟩
      · by_contra hne
        obtain ⟨q, hq, hmark⟩ := exists_ne_of_begun hplan hne fun _ => d.last.channel?
        exact hmark (congrFun (holds.tables_eq hsame (hids q (List.mem_append_left _ hq))) q.2.slot)
      · rintro rfl
        exact holds

end TschLearning.Fleet

namespace TschLearning.Pan

open TschLearning.Action Fleet

/-- A row of three channels for a device of two slots. -/
theorem deploy_raised_cramped :
    ∃ t, Deployer.deploy macAccess (.channels (Datum.ofInts [1, 1, 1]))
        (.create .links [0], cramped)
          = .error (.indexOutOfRange (possessive Mac.ownerLabel) "slot" 2 (.int 2))
            (.create .links [0], t) ∧
      ∃ before i e after,
        planOf (.create [0]) (.ofChannels [1, 1, 1]) = before ++ (i, e) :: after ∧
        ∀ q ∈ before, (crampedMac q.1).Admits q.2 := by
  have hsized : ∀ i ∈ [0], (crampedMac i).IsSized := by
    simp [Mac.IsSized, crampedMac]
  have hedits : LinkEdit.between .empty (.ofChannels [1, 1, 1])
      = [.add 0 1, .add 1 1, .add 2 1] := by
    rw [LinkEdit.between_eq_insertionSort]
    rfl
  have hraised : ∃ t, LinkDeployer.deploy macAccess (.ofChannels [1, 1, 1]) (.create [0], cramped)
      = .error (.indexOutOfRange (possessive Mac.ownerLabel) "slot" 2 (.int 2))
        (.create [0], t) := by
    simp only [LinkDeployer.deploy, bind, EStateM.bind, part, LinkDeployer.create, hedits]
    exact ⟨_, rfl⟩
  obtain ⟨t, hrun⟩ := hraised
  have hrow : (Configuration.channels (Datum.ofInts [1, 1, 1])).links
      = .ok (.ofChannels [1, 1, 1]) := rfl
  have hraised := Deployer.deploy_eq_error_of_links hrow hrun
  have hstep := Pan.inStep_create (List.nodup_singleton 0) hsized (p := cramped)
    (by simp [cramped]) (fun _ _ => rfl)
  have hslots : ∀ i ∈ [0], (crampedMac i).slots = .int 2 := fun _ _ => rfl
  have hchannels : ∀ i ∈ [0], (crampedMac i).channels = .int 3 := fun _ _ => rfl
  obtain ⟨-, hedits⟩ := deploy_raised (f := fleet [0] (List.nodup_singleton 0) crampedMac hsized)
    hslots hchannels hstep hraised
  rw [hrow] at hedits
  obtain ⟨before, i, e, after, hplan, hadmits, -⟩ := hedits
  exact ⟨t, hraised, before, i, e, after, hplan, hadmits⟩

/-- Of two links, the second one is beyond the two slots of a device without links. The deployment
fails with that index, and the device keeps the first link, which the deployer knows nothing of. -/
theorem deploy_raises_with_link_made :
    cramped.macs[0]? = some (crampedMac 0) ∧ (crampedMac 0).links = .empty ∧
      ∃ t, Deployer.deploy macAccess (.pairs [(.int 0, .int 0), (.int 2, .int 0)])
          (.create .links [0], cramped)
            = .error (.indexOutOfRange (possessive Mac.ownerLabel) "slot" 2 (.int 2))
              (.create .links [0], t) ∧
        t.macs[0]? = some ((crampedMac 0).withLinks ⟨[(0, 0)]⟩) := by
  have hedits : LinkEdit.between .empty ⟨[(0, 0), (2, 0)]⟩ = [.add 0 0, .add 2 0] := by
    rw [LinkEdit.between_eq_insertionSort]
    rfl
  have hraised : ∃ t, LinkDeployer.deploy macAccess ⟨[(0, 0), (2, 0)]⟩ (.create [0], cramped)
      = .error (.indexOutOfRange (possessive Mac.ownerLabel) "slot" 2 (.int 2)) (.create [0], t) ∧
      t.macs[0]? = some ((crampedMac 0).withLinks ⟨[(0, 0)]⟩) := by
    simp only [LinkDeployer.deploy, bind, EStateM.bind, part, LinkDeployer.create, hedits]
    exact ⟨_, rfl, rfl⟩
  obtain ⟨t, hrun, hleft⟩ := hraised
  have hpairs : (Configuration.pairs [(.int 0, .int 0), (.int 2, .int 0)]).links
      = .ok ⟨[(0, 0), (2, 0)]⟩ := rfl
  exact ⟨rfl, rfl, t, Deployer.deploy_eq_error_of_links hpairs hrun, hleft⟩

end TschLearning.Pan
