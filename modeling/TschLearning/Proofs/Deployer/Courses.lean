import TschLearning.Proofs.Deployer.AllOrNothing
import TschLearning.Proofs.Deployer.Fates

/-! The courses that a deployment of links can take, from whatever links the MAC layers have. One
that raises a fault is not taken back, so the MAC layers may be out of step with the deployer from
then on; as long as none does, they are not. -/

namespace TschLearning

namespace LinkEdit

/-- A slot that is to have another channel than it has gets a link. -/
theorem add_mem_between {old new : Links} {s c : Int} (hnew : new.channel? s = some c)
    (hold : old.channel? s ≠ some c) : .add s c ∈ between old new := by
  have hslot := mem_slots_of_channel?_ne (hnew.symm ▸ hold)
  refine List.mem_flatMap.2 ⟨s, (List.mergeSort_perm _ _).mem_iff.2 hslot, ?_⟩
  unfold ofSlot ofChange
  rw [hnew, if_neg hold]
  simp

end LinkEdit

namespace Fleet

open TschLearning.Action LinkDeployer

variable {μ κ σ ν : Type} [DecidableEq μ] [Journal σ] (f : Fleet μ κ σ ν)

/-- A deployer whose MAC layers have any links that there is room for. -/
structure Facing (rest : ν) (d : LinkDeployer μ) (tables : μ → SlotTable) (s : σ) : Prop where
  macs_eq : d.macs = f.ids
  distinct : d.last.Distinct
  covers : f.CoversAll d.last
  roomy : f.Roomy tables
  holds : f.Holds rest tables s

omit [DecidableEq μ] in
/-- A deployer in step faces MAC layers with the links that it has deployed last. -/
theorem InStep.facing {f : Fleet μ κ σ ν} {rest : ν} {d : LinkDeployer μ} {s : σ}
    (h : f.InStep rest d s) : f.Facing rest d (fun _ => d.last.channel?) s :=
  ⟨h.macs_eq, h.distinct, h.covers, h.roomy, h.holds⟩

/-- How a deployment can come out: its outcome, and the deployer and the state after it. -/
inductive Course (rest : ν) (d : LinkDeployer μ) (tables : μ → SlotTable) (links : Links) :
    Except Fault Bool → LinkDeployer μ → σ → Prop where
  | taken {t : σ} (hpasses : f.Passes tables (planOf d links))
      (holds : f.Holds rest (editedAll tables (planOf d links)) t) :
      Course rest d tables links (.ok true) { d with last := links } t
  | givenUp {t : σ} {before : List (μ × LinkEdit)} {p : μ × LinkEdit}
      {after : List (μ × LinkEdit)} {back : μ → SlotTable}
      (hplan : planOf d links = before ++ p :: after)
      (hroom : ¬(f.mac p.1).HasRoom (p.2.on (editedAll tables before p.1)))
      (hroomy : f.Roomy back) (holds : f.Holds rest back t)
      (hback : Fitting tables before → back = tables) :
      Course rest d tables links (.ok false) { d with failures := d.failures + 1 } t
  | brokenOff {t : σ} {before : List (μ × LinkEdit)} {p : μ × LinkEdit}
      {after : List (μ × LinkEdit)} {why : Fault}
      (hplan : planOf d links = before ++ p :: after) (hpasses : f.Passes tables before)
      (hwhy : (f.mac p.1).admission p.2 = .error why)
      (holds : f.Holds rest (editedAll tables before) t) :
      Course rest d tables links (.error why) d t

variable {f} {rest : ν} {d d' : LinkDeployer μ} {tables : μ → SlotTable} {links : Links}
  {outcome : Except Fault Bool} {s t : σ}

theorem RoomyAll.hasRoom {before after : List (μ × LinkEdit)} {p : μ × LinkEdit}
    (h : f.RoomyAll tables (before ++ p :: after)) (hp : p.1 ∈ f.ids) :
    (f.mac p.1).HasRoom (p.2.on (editedAll tables before p.1)) := by
  have hafter := (roomyAll_append.1 h).2.2.first p.1 hp
  rwa [edited_self] at hafter

/-! ### One deployment -/

omit [DecidableEq μ] in
/-- Links that were deployed can be put back wherever an edit of theirs was made. -/
theorem Facing.admits_undo (h : f.Facing rest d tables s) {q : μ × LinkEdit}
    (hq : q ∈ planOf d links) (hadmits : (f.mac q.1).Admits q.2) :
    (f.mac q.1).Admits q.2.undo := by
  obtain ⟨i, e⟩ := q
  obtain ⟨hi, he⟩ := mem_planOf.1 hq
  cases e with
  | delete s c =>
    have hentry := (Links.mem_entries_iff h.distinct s c).2 (LinkEdit.entry_of_mem_between he)
    exact h.covers i (h.macs_eq ▸ hi) (s, c) hentry
  | add s c => exact hadmits.1

theorem Facing.settles_deploy (h : f.Facing rest d tables s) (links : Links) :
    Settles (deploy f.access links) (d, s) fun outcome t =>
      f.Course rest d tables links outcome t.1 t.2 := by
  have hids : ∀ q ∈ planOf d links, q.1 ∈ f.ids := fun q hq => h.macs_eq ▸ (mem_planOf.1 hq).1
  have hnote : ∀ (n : Note) (d' : LinkDeployer μ) (t : σ), Journal.obstacle? n (d', t) = none :=
    fun n _ t => f.lawful.obstacle?_eq_none n t
  unfold deploy
  simp only [settles_bind, settles_part, settles_outside]
  refine (settles_applyAll h.holds h.roomy hids []).mono ?_
  rintro _ t (⟨hpasses, holds⟩ | ⟨before, hplan, hpasses, hroom, holds⟩ |
    ⟨before, hplan, hpasses, hwhy, holds⟩)
  · simp only [settles_bind, settles_change, settles_note, hnote]
    exact .taken hpasses (holds.enter _)
  · have hbefore : ∀ q ∈ before, q ∈ planOf d links := by
      intro q hq
      rw [hplan]
      exact List.mem_append_left _ hq
    have hundo := ends_undoAll_of_admits holds hpasses (fun q hq => hids q (hbefore q hq))
      fun q hq => h.admits_undo (hbefore q hq) (hpasses.admits q hq)
    simp only [List.append_nil, settles_bind, settles_outside]
    refine settles_of_ends (hundo.mono ?_)
    rintro _ u ⟨back, hroomy, hu, hback⟩
    simp only [settles_change, settles_note, hnote]
    exact .givenUp hplan hroom hroomy (hu.enter _) hback
  · exact .brokenOff hplan hpasses hwhy holds

omit [DecidableEq μ] in
/-- The edits of a deployment within the slotframes are all admitted. -/
theorem Facing.admits_planOf (h : f.Facing rest d tables s) (hl : links.Distinct)
    (hcov : f.CoversAll links) : ∀ q ∈ planOf d links, (f.mac q.1).Admits q.2 := by
  intro q hq
  obtain ⟨hi, he⟩ := mem_planOf.1 hq
  exact (covers_of_mem_between h.distinct hl h.covers hcov (h.macs_eq ▸ hi) he).admits

/-- A deployment within the slotframes gives an answer, and is accepted if there is room for the
tables on the way. -/
theorem Course.answer (hc : f.Course rest d tables links outcome d' t)
    (h : f.Facing rest d tables s) (hl : links.Distinct) (hcov : f.CoversAll links) :
    ∃ answer, outcome = .ok answer ∧ (answer = true ↔ f.RoomyAll tables (planOf d links)) := by
  have hmem : ∀ {before p after}, planOf d links = before ++ p :: after → p ∈ planOf d links :=
    fun hplan => hplan ▸ List.mem_append_right _ List.mem_cons_self
  cases hc with
  | taken hpasses holds => exact ⟨true, rfl, iff_of_true rfl hpasses.roomy⟩
  | givenUp hplan hroom =>
    refine ⟨false, rfl, iff_of_false Bool.false_ne_true fun hroomy => hroom ?_⟩
    rw [hplan] at hroomy
    exact hroomy.hasRoom (h.macs_eq ▸ (mem_planOf.1 (hmem hplan)).1)
  | brokenOff hplan hpasses hwhy =>
    exact absurd (h.admits_planOf hl hcov _ (hmem hplan)) (Mac.not_admits hwhy)

omit [DecidableEq μ] in
/-- Links that were accepted are within the slotframes. -/
theorem Facing.coversAll (h : f.Facing rest d tables s) (hl : links.Distinct)
    (hadmits : ∀ q ∈ planOf d links, (f.mac q.1).Admits q.2) : f.CoversAll links := by
  rintro i hi ⟨u, c⟩ he
  have hnew := (Links.mem_entries_iff hl u c).1 he
  by_cases hold : d.last.channel? u = some c
  · exact h.covers i hi (u, c) ((Links.mem_entries_iff h.distinct u c).2 hold)
  · have hadd := LinkEdit.add_mem_between hnew hold
    exact hadmits (i, .add u c) (mem_planOf.2 ⟨h.macs_eq ▸ hi, hadd⟩)

/-- The MAC layers have the links that were deployed last. -/
def Level (f : Fleet μ κ σ ν) (d : LinkDeployer μ) (tables : μ → SlotTable) : Prop :=
  ∀ i ∈ f.ids, tables i = d.last.channel?

/-- Whatever becomes of a deployment, the next one can follow; and unless it raises a fault, MAC
layers with the links that were deployed last are found so again. -/
theorem Course.facing (hc : f.Course rest d tables links outcome d' t)
    (h : f.Facing rest d tables s) (hl : links.Distinct) :
    ∃ tables', f.Facing rest d' tables' t ∧
      ((∃ answer, outcome = .ok answer) → f.Level d tables → f.Level d' tables') := by
  cases hc with
  | taken hpasses holds =>
    refine ⟨_, ?_, fun _ hlevel => (fitting_planOf h.macs_eq h.distinct hl hlevel).2⟩
    exact {
      macs_eq := h.macs_eq
      distinct := hl
      covers := h.coversAll hl hpasses.admits
      roomy := hpasses.roomy.last
      holds := holds }
  | givenUp hplan hroom hroomy holds hback =>
    refine ⟨_, { h with roomy := hroomy, holds := holds }, fun _ hlevel => ?_⟩
    have hfit := (fitting_planOf h.macs_eq h.distinct hl hlevel).1
    rw [hplan, fitting_append] at hfit
    rwa [hback hfit.1]
  | brokenOff hplan hpasses hwhy holds =>
    refine ⟨_, { h with roomy := hpasses.roomy.last, holds := holds }, ?_⟩
    rintro ⟨_, he⟩
    cases he

end Fleet

/-! ### Any number of deployments -/

/-- The links that a configuration stands for. -/
def Configuration.links : Configuration → Except Fault Links
  | .channels items => LinkDeployer.linksOfItems items
  | .pairs entries => LinkDeployer.linksOfPairs entries

theorem Links.distinct_ofPairs (pairs : List (Int × Int)) : (ofPairs pairs).Distinct := by
  have hfold : ∀ l : Links, l.Distinct →
      (pairs.foldl (fun l e => l.insert e.1 e.2) l).Distinct := by
    induction pairs with
    | nil => exact fun l hl => hl
    | cons e rest ih => exact fun l hl => ih _ (distinct_insert hl e.1 e.2)
  exact hfold empty distinct_empty

theorem Configuration.distinct_links {c : Configuration} {links : Links}
    (h : c.links = .ok links) : links.Distinct := by
  cases c with
  | channels items =>
    obtain ⟨channels, -, hlinks⟩ := bind_eq_ok.1 h
    cases hlinks
    exact Links.distinct_ofChannels channels
  | pairs entries =>
    obtain ⟨pairs, -, hlinks⟩ := bind_eq_ok.1 h
    cases hlinks
    exact Links.distinct_ofPairs pairs

theorem Deployer.deploy_links_eq {μ σ : Type} [Journal σ] {access : MacAccess μ σ}
    {d : LinkDeployer μ} {s : σ} {configuration : Configuration} {row : Links}
    (h : configuration.links = .ok row) :
    deploy access configuration (.links d, s) =
      match LinkDeployer.deploy access row (d, s) with
      | .ok answer t => .ok answer (.links t.1, t.2)
      | .error why t => .error why (.links t.1, t.2) := by
  have hdeploy : deploy access configuration (.links d, s) =
      (Action.ofExcept configuration.links >>= fun row => Action.within (fun _ => d)
        (fun d _ => Deployer.links d) (LinkDeployer.deploy access row)) (.links d, s) := by
    cases configuration <;> rfl
  rw [hdeploy, h]
  simp only [Action.ofExcept, pure_bind, Action.within]
  cases LinkDeployer.deploy access row (d, s) <;> rfl

theorem Deployer.deploy_eq_ok_of_links {μ σ : Type} [Journal σ] {access : MacAccess μ σ}
    {d d' : LinkDeployer μ} {s t : σ} {configuration : Configuration} {row : Links} {answer : Bool}
    (h : configuration.links = .ok row)
    (hrun : LinkDeployer.deploy access row (d, s) = .ok answer (d', t)) :
    deploy access configuration (.links d, s) = .ok answer (.links d', t) := by
  rw [deploy_links_eq h, hrun]

theorem Deployer.deploy_eq_error_of_links {μ σ : Type} [Journal σ] {access : MacAccess μ σ}
    {d d' : LinkDeployer μ} {s t : σ} {configuration : Configuration} {row : Links} {why : Fault}
    (h : configuration.links = .ok row)
    (hrun : LinkDeployer.deploy access row (d, s) = .error why (d', t)) :
    deploy access configuration (.links d, s) = .error why (.links d', t) := by
  rw [deploy_links_eq h, hrun]

theorem Deployer.attemptEach_cons_eq_ok {μ σ : Type} [Journal σ] {access : MacAccess μ σ}
    {c : Configuration} {history : List Configuration} {answer : Bool}
    {outcomes : List (Except Fault Bool)} {p q r : Deployer μ × σ}
    (h : deploy access c p = .ok answer q) (hrest : attemptEach access history q = .ok outcomes r) :
    attemptEach access (c :: history) p = .ok (.ok answer :: outcomes) r := by
  simp only [attemptEach, bind, EStateM.bind, Action.attempt, h, hrest]
  rfl

/-- A configuration that stands for no links fails before anything is done. -/
theorem Deployer.settles_deploy_links {μ σ : Type} [Journal σ] {access : MacAccess μ σ}
    {d : LinkDeployer μ} {s : σ} {configuration : Configuration}
    {post : Except Fault Bool → Deployer μ × σ → Prop} :
    Action.Settles (deploy access configuration) (.links d, s) post ↔
      match configuration.links with
      | .ok row =>
        Action.Settles (LinkDeployer.deploy access row) (d, s) fun r t => post r (.links t.1, t.2)
      | .error why => post (.error why) (.links d, s) := by
  have hdeploy : Action.Settles (deploy access configuration) (.links d, s) post ↔
      Action.Settles (Action.ofExcept configuration.links >>= fun row =>
        Action.within (fun _ => d) (fun d _ => Deployer.links d)
          (LinkDeployer.deploy access row)) (.links d, s) post := by
    cases configuration <;> exact Iff.rfl
  rw [hdeploy, Action.settles_bind, Action.settles_ofExcept]
  cases configuration.links with
  | ok row => exact Action.settles_within
  | error why => exact Iff.rfl

namespace Fleet

open TschLearning.Action

variable {μ κ σ ν : Type} [DecidableEq μ] [Journal σ] {f : Fleet μ κ σ ν} {rest : ν}
  {d : LinkDeployer μ} {tables : μ → SlotTable} {s : σ}

/-- Any number of deployments, whatever they come to. -/
theorem Facing.ends_attemptEach (h : f.Facing rest d tables s) (history : List Configuration) :
    Ends (Deployer.attemptEach f.access history) (.links d, s) fun outcomes t =>
      ∃ d' tables', t.1 = .links d' ∧ f.Facing rest d' tables' t.2 ∧
        ((∀ o ∈ outcomes, ∃ answer, o = .ok answer) → f.Level d tables → f.Level d' tables') := by
  induction history generalizing d tables s with
  | nil => exact ⟨d, tables, rfl, h, fun _ hlevel => hlevel⟩
  | cons c history ih =>
    unfold Deployer.attemptEach
    simp only [ends_bind, ends_attempt]
    rw [Deployer.settles_deploy_links]
    cases hlinks : c.links with
    | error why =>
      refine (ih h).mono ?_
      rintro outcomes ⟨_, u⟩ ⟨d', tables', rfl, hnext, -⟩
      refine ⟨d', tables', rfl, hnext, fun hok => ?_⟩
      obtain ⟨_, he⟩ := hok _ List.mem_cons_self
      cases he
    | ok links =>
      refine (h.settles_deploy links).mono ?_
      rintro outcome ⟨d', t⟩ hcourse
      obtain ⟨tables', hnext, hlevel⟩ := hcourse.facing h (Configuration.distinct_links hlinks)
      refine (ih hnext).mono ?_
      rintro outcomes ⟨_, u⟩ ⟨d'', tables'', rfl, hlast, hlevel'⟩
      refine ⟨d'', tables'', rfl, hlast, fun hok hstart => ?_⟩
      rw [List.forall_mem_cons] at hok
      exact hlevel' hok.2 (hlevel hok.1 hstart)

end Fleet
end TschLearning
