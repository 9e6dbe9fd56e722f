import TschLearning.Proofs.Deployer.Configurations
import TschLearning.Proofs.Deployer.Rollback
import TschLearning.Proofs.Deployer.Wilful

/-! Deployments of links to MAC layers that refuse what they please. An edit that is not taken
back leaves a MAC layer apart from what the deployer believes to be deployed. Later deployments
edit only what changes between two beliefs, so the difference stays until the slot is edited
again, and an accepted deployment does not bring its links to every MAC layer. -/

namespace TschLearning

namespace Action

variable {σ τ γ β : Type}

/-- The operation with a log of its own, which it gives beside its result. -/
def withLog (x : Action (τ × List γ × σ) β) : Action (τ × σ) (β × List γ) := fun (t, s) =>
  match x (t, [], s) with
  | .ok b (t, log, s) => .ok (b, log) (t, s)
  | .error f (t, _, s) => .error f (t, s)

theorem withLog_eq_ok {x : Action (τ × List γ × σ) β} {t t' : τ} {s s' : σ} {b : β} {log : List γ}
    (h : x (t, [], s) = .ok b (t', log, s')) : withLog x (t, s) = .ok (b, log) (t', s') := by
  simp only [withLog, h]

end Action

namespace Deployer

variable {μ σ : Type} [Journal σ]

/-- Deploys configurations one after the other; gives every answer with the calls that it took. -/
def deployEachLogged (access : MacAccess μ σ) :
    List IntConfiguration → Action (Deployer μ × σ) (List (Bool × List (MacCall μ)))
  | [] => pure []
  | c :: rest => do
    let attempt ← Action.withLog (deploy access.recording c.given)
    return attempt :: (← deployEachLogged access rest)

theorem deployEachLogged_cons_eq_ok {access : MacAccess μ σ} {c : IntConfiguration}
    {rest : List IntConfiguration} {answer : Bool} {calls : List (MacCall μ)}
    {attempts : List (Bool × List (MacCall μ))} {d d' : Deployer μ} {s s' : σ}
    {r : Deployer μ × σ}
    (h : deploy access.recording c.given (d, [], s) = .ok answer (d', calls, s'))
    (hrest : deployEachLogged access rest (d', s') = .ok attempts r) :
    deployEachLogged access (c :: rest) (d, s) = .ok ((answer, calls) :: attempts) r := by
  simp only [deployEachLogged, bind, EStateM.bind, Action.withLog_eq_ok h, hrest]
  rfl

end Deployer

namespace LinkDeployer

open TschLearning.Action MacAccess Fleet

variable {μ σ : Type}

/-- Among the calls of a deployment there is one about a slot of a MAC layer that was refused
behind another refusal, so when an edit was to be taken back. -/
def UndoRefused (calls : List (MacCall μ)) (i : μ) (slot : Int) : Prop :=
  ∃ forth back, calls = forth ++ back ∧ (∃ call ∈ forth, call.refusal.isSome = true) ∧
    ∃ (e : LinkEdit) (why : Fault), ⟨i, e.request, some why⟩ ∈ back ∧ e.slot = slot

variable [DecidableEq μ]

/-- How a deployment of links can come out. -/
inductive Attempt (d : LinkDeployer μ) (links : Links) (h : μ → SlotTable) :
    Bool → LinkDeployer μ → (μ → SlotTable) → List (MacCall μ) → Prop where
  | taken : Attempt d links h true { d with last := links }
      (editedAll h (d.plan (LinkEdit.between d.last links)))
      ((d.plan (LinkEdit.between d.last links)).map accepted)
  | givenUp {h' : μ → SlotTable} {calls : List (MacCall μ)}
      (hdrift : ∀ i slot, h' i slot ≠ d.last.channel? slot →
        h i slot ≠ d.last.channel? slot ∨ UndoRefused calls i slot) :
      Attempt d links h false { d with failures := d.failures + 1 } h' calls

/-- An edit changes one slot of one MAC layer. -/
theorem edited_of_ne {h : μ → SlotTable} {p : μ × LinkEdit} {i : μ} {slot : Int}
    (hne : ¬(i = p.1 ∧ slot = p.2.slot)) : edited h p i slot = h i slot := by
  by_cases hi : i = p.1
  · subst hi
    rw [edited_self]
    exact LinkEdit.on_of_ne (fun hs => hne ⟨rfl, hs⟩) _
  · rw [edited, Function.update_of_ne hi]

/-- Where tables differ after the same edit, they differed before. -/
theorem ne_of_edited_ne {h h' : μ → SlotTable} {p : μ × LinkEdit} {i : μ} {slot : Int}
    (hne : edited h p i slot ≠ edited h' p i slot) : h i slot ≠ h' i slot := by
  by_cases hplace : i = p.1 ∧ slot = p.2.slot
  · obtain ⟨rfl, rfl⟩ := hplace
    rw [edited_self, edited_self] at hne
    exact absurd (LinkEdit.on_slot _ _ _) hne
  · rwa [edited_of_ne hplace, edited_of_ne hplace] at hne

/-- What an accepted deployment makes of the table of a MAC layer. -/
theorem Attempt.table_eq {d d' : LinkDeployer μ} {links : Links} {h h' : μ → SlotTable}
    {calls : List (MacCall μ)} (hout : Attempt d links h true d' h' calls) (hnd : d.macs.Nodup)
    {i : μ} (hi : i ∈ d.macs) :
    h' i = fun slot =>
      if d.last.channel? slot = links.channel? slot then h i slot else links.channel? slot := by
  cases hout
  rw [LinkDeployer.plan, editedAll_flatMap _ hnd]
  simp only [if_pos hi, LinkEdit.onAll_between]

theorem Attempt.last_eq {d d' : LinkDeployer μ} {links : Links} {answer : Bool}
    {h h' : μ → SlotTable} {calls : List (MacCall μ)}
    (hout : Attempt d links h answer d' h' calls) :
    d'.last = if answer = true then links else d.last := by
  cases hout <;> rfl

/-- A difference from what was deployed last is an old one, or an edit that was not taken back. -/
theorem Attempt.drift {d d' : LinkDeployer μ} {links : Links} {answer : Bool} {h h' : μ → SlotTable}
    {calls : List (MacCall μ)} (hout : Attempt d links h answer d' h' calls) (hnd : d.macs.Nodup)
    {i : μ} (hi : i ∈ d.macs) {slot : Int} (hne : h' i slot ≠ d'.last.channel? slot) :
    h i slot ≠ d.last.channel? slot ∨ (answer = false ∧ UndoRefused calls i slot) := by
  cases answer with
  | true =>
    rw [hout.table_eq hnd hi, hout.last_eq] at hne
    simp only [if_true] at hne
    split at hne
    · rename_i hsame
      exact .inl (hsame ▸ hne)
    · exact absurd rfl hne
  | false =>
    cases hout with
    | givenUp hdrift => exact (hdrift i slot hne).imp id fun hundo => ⟨rfl, hundo⟩

theorem ne_of_editedAll_ne {h h' : μ → SlotTable} {plan : List (μ × LinkEdit)} {i : μ} {slot : Int}
    (hne : editedAll h plan i slot ≠ editedAll h' plan i slot) : h i slot ≠ h' i slot := by
  induction plan generalizing h h' with
  | nil => exact hne
  | cons p plan ih => exact ne_of_edited_ne (ih hne)

variable [Journal σ] {access : MacAccess μ σ} {tables : σ → μ → SlotTable}
  (hw : access.WilfulLinks tables)

include hw

/-- Edits are made up to the first one that is refused. -/
theorem ends_applyAll_recording (plan made : List (μ × LinkEdit)) (calls : List (MacCall μ))
    (s : σ) :
    Ends (applyAll access.recording made plan) (calls, s) fun r t =>
      (r = (plan.reverse ++ made, none) ∧ t.1 = calls ++ plan.map accepted ∧
        tables t.2 = editedAll (tables s) plan) ∨
      ∃ before p after why, plan = before ++ p :: after ∧ r = (before.reverse ++ made, some why) ∧
        t.1 = calls ++ before.map accepted ++ [⟨p.1, p.2.request, some why⟩] ∧
        tables t.2 = editedAll (tables s) before := by
  induction plan generalizing made calls s with
  | nil => exact .inl ⟨rfl, (List.append_nil calls).symm, rfl⟩
  | cons p plan ih =>
    unfold applyAll
    rw [edit_recording]
    simp only [ends_bind, ends_refusal?_logged]
    refine (hw.edit p.1 p.2 s).mono ?_
    intro r t ht
    cases r with
    | some why => exact .inr ⟨[], p, plan, why, rfl, rfl, by simp, ht⟩
    | none =>
      have ht : tables t = edited (tables s) p := ht
      refine (ih _ _ t).mono ?_
      rintro r u (⟨rfl, hc, hu⟩ | ⟨before, q, after, why, rfl, rfl, hc, hu⟩)
      · exact .inl ⟨by simp, by simp [hc, accepted], by rw [hu, ht]; rfl⟩
      · exact .inr ⟨p :: before, q, after, why, rfl, by simp, by simp [hc, accepted],
          by rw [hu, ht]; rfl⟩

/-- Edits are taken back as far as the MAC layers let it. Beside tables where all of them are
taken back, a difference that is new stems from a refusal. -/
theorem ends_undoAll_recording (made : List (μ × LinkEdit)) (h : μ → SlotTable)
    (calls : List (MacCall μ)) (s : σ) :
    Ends (undoAll access.recording made) (calls, s) fun _ t =>
      ∃ back, t.1 = calls ++ back ∧
        ∀ i slot, tables t.2 i slot ≠ editedAll h (made.map undo) i slot →
          tables s i slot ≠ h i slot ∨
            ∃ (e : LinkEdit) (why : Fault), ⟨i, e.request, some why⟩ ∈ back ∧ e.slot = slot := by
  induction made generalizing h calls s with
  | nil => exact ⟨[], (List.append_nil calls).symm, fun i slot hne => .inl hne⟩
  | cons p made ih =>
    unfold undoAll
    rw [edit_recording]
    simp only [ends_bind, ends_refusal?_logged]
    refine (hw.edit p.1 p.2.undo s).mono ?_
    intro r t ht
    -- what the first edit taken back adds to what the others do
    have hnext : ∀ u : List (MacCall μ) × σ, (∃ back,
        u.1 = calls ++ [⟨p.1, p.2.undo.request, r⟩] ++ back ∧
          ∀ i slot, tables u.2 i slot ≠ editedAll (edited h (undo p)) (made.map undo) i slot →
            tables t i slot ≠ edited h (undo p) i slot ∨
              ∃ (e : LinkEdit) (why : Fault), ⟨i, e.request, some why⟩ ∈ back ∧ e.slot = slot) →
        ∃ back, u.1 = calls ++ back ∧
          ∀ i slot, tables u.2 i slot ≠ editedAll h ((p :: made).map undo) i slot →
            tables s i slot ≠ h i slot ∨
              ∃ (e : LinkEdit) (why : Fault), ⟨i, e.request, some why⟩ ∈ back ∧ e.slot = slot := by
      rintro u ⟨back, hc, hback⟩
      refine ⟨⟨p.1, p.2.undo.request, r⟩ :: back, by simp [hc], fun i slot hne => ?_⟩
      rcases hback i slot hne with hdiff | ⟨e, why, hmem, hslot⟩
      · cases r with
        | none =>
          have ht : tables t = edited (tables s) (undo p) := ht
          rw [ht] at hdiff
          exact .inl (ne_of_edited_ne hdiff)
        | some why =>
          have ht : tables t = tables s := ht
          rw [ht] at hdiff
          by_cases hplace : i = p.1 ∧ slot = p.2.undo.slot
          · obtain ⟨rfl, rfl⟩ := hplace
            exact .inr ⟨p.2.undo, why, List.mem_cons_self, rfl⟩
          · rw [edited_of_ne (p := undo p) hplace] at hdiff
            exact .inl hdiff
      · exact .inr ⟨e, why, List.mem_cons_of_mem _ hmem, hslot⟩
    cases r with
    | none => exact (ih (edited h (undo p)) _ t).mono fun _ u => hnext u
    | some why =>
      simp only [ends_bind, ends_note]
      refine ⟨hw.discreet.obstacle?_eq_none _ _,
        (ih (edited h (undo p)) _ _).mono fun _ u hu => hnext u ?_⟩
      rw [hw.discreet.view_enter] at hu
      exact hu

/-- A deployment that is accepted makes all of its edits. Where one that is given up leaves a
difference from what was deployed last, there was one before, or taking an edit back was
refused. -/
theorem ends_deploy_recording {d : LinkDeployer μ} (hnd : d.macs.Nodup) (hlast : d.last.Distinct)
    {links : Links} (hl : links.Distinct) (s : σ) :
    Ends (deploy access.recording links) (d, [], s) fun answer t =>
      t.1.macs = d.macs ∧ Attempt d links (tables s) answer t.1 (tables t.2.2) t.2.1 := by
  unfold deploy
  simp only [ends_bind, ends_part, ends_outside]
  refine (ends_applyAll_recording hw (d.plan (LinkEdit.between d.last links)) [] [] s).mono ?_
  rintro r ⟨calls, t⟩ (⟨rfl, hc, ht⟩ | ⟨before, p, after, why, hplan, rfl, hc, ht⟩)
  · obtain rfl : calls = _ := hc
    simp only [ends_bind, ends_change, ends_note, ends_pure]
    refine ⟨hw.discreet.obstacle?_eq_none _ _, rfl, ?_⟩
    show Attempt d links (tables s) true _ (tables (Journal.enter _ t)) _
    rw [hw.discreet.view_enter, ht]
    exact .taken
  · -- beside the MAC layers, tables that show what was deployed last and let every edit be undone
    have hfit : Fitting (fun _ => d.last.channel?) before := by
      have hchain := (LinkEdit.chain_between hlast hl).1
      have hall : Fitting (fun _ => d.last.channel?) (d.plan (LinkEdit.between d.last links)) :=
        fitting_flatMap hnd fun _ _ => hchain
      rw [hplan, fitting_append] at hall
      exact hall.1
    simp only [List.append_nil, ends_bind, ends_change, ends_note, ends_outside, ends_pure]
    refine (ends_undoAll_recording hw before.reverse
      (editedAll (fun _ => d.last.channel?) before) calls t).mono ?_
    rintro _ ⟨calls', u⟩ ⟨back, hc', hback⟩
    refine ⟨hw.discreet.obstacle?_eq_none _ _, rfl, ?_⟩
    show Attempt d links (tables s) false _ (tables (Journal.enter _ u)) _
    rw [hw.discreet.view_enter]
    refine .givenUp fun i slot hne => ?_
    rcases hback i slot (by rwa [editedAll_undo hfit]) with hdiff | ⟨e, other, hmem, hslot⟩
    · rw [show tables t = _ from ht] at hdiff
      exact .inl (ne_of_editedAll_ne hdiff)
    · refine .inr ⟨calls, back, hc', ⟨⟨p.1, p.2.request, some why⟩, ?_, rfl⟩, e, other, hmem,
        hslot⟩
      have hlog : calls = [] ++ before.map accepted ++ [⟨p.1, p.2.request, some why⟩] := hc
      rw [hlog]
      exact List.mem_append_right _ List.mem_cons_self

/-- One deployment, with its calls written down and without. -/
theorem deploy_given_eq_ok {d : LinkDeployer μ} (hnd : d.macs.Nodup) (hlast : d.last.Distinct)
    (c : IntConfiguration) (s : σ) :
    ∃ answer d' t calls,
      Deployer.deploy access c.given (.links d, s) = .ok answer (.links d', t) ∧
      Deployer.deploy access.recording c.given (.links d, [], s)
        = .ok answer (.links d', calls, t) ∧
      d'.macs = d.macs ∧ Attempt d c.links (tables s) answer d' (tables t) calls := by
  have hrec := ends_deploy_recording hw hnd hlast c.distinct_links s
  have hplain := (agree_deploy access c.links).ends (s := (d, [], s)) (t := (d, s)) ⟨rfl, rfl⟩ hrec
  obtain ⟨_, ⟨_, _⟩, hp, answer, ⟨d', calls, t⟩, hr, ⟨hmacs, hout⟩, rfl, rfl, rfl⟩ :=
    ends_iff.1 hplain
  exact ⟨answer, d', t, calls, Deployer.deploy_links_eq_ok hp, Deployer.deploy_links_eq_ok hr,
    hmacs, hout⟩

/-- Some deployment was given up and did not take back an edit of a slot. -/
def LeftBehind (attempts : List (Bool × List (MacCall μ))) (i : μ) (slot : Int) : Prop :=
  ∃ attempt ∈ attempts, attempt.1 = false ∧ UndoRefused attempt.2 i slot

/-- After any number of deployments, a MAC layer differs from what was deployed last only where
it did so before or where taking an edit back was refused. -/
theorem deployEach_eq_ok {d : LinkDeployer μ} (hnd : d.macs.Nodup) (hlast : d.last.Distinct)
    (history : List IntConfiguration) (s : σ) :
    ∃ attempts d' t,
      Deployer.deployEach access history (.links d, s) = .ok (attempts.map (·.1)) (.links d', t) ∧
      Deployer.deployEachLogged access history (.links d, s) = .ok attempts (.links d', t) ∧
      d'.macs = d.macs ∧ d'.last.Distinct ∧
      ∀ i ∈ d.macs, ∀ slot, tables t i slot ≠ d'.last.channel? slot →
        tables s i slot ≠ d.last.channel? slot ∨ LeftBehind attempts i slot := by
  induction history generalizing d s with
  | nil => exact ⟨[], d, s, rfl, rfl, rfl, hlast, fun i _ slot hne => .inl hne⟩
  | cons c history ih =>
    obtain ⟨answer, d', t, calls, hc, hrec, hmacs, hout⟩ := deploy_given_eq_ok hw hnd hlast c s
    have hlast' : d'.last.Distinct := by
      rw [hout.last_eq]
      split
      · exact c.distinct_links
      · exact hlast
    obtain ⟨attempts, d'', u, hrest, hlog, hmacs', hdistinct, hdrift⟩ :=
      ih (hmacs ▸ hnd) hlast' t
    refine ⟨(answer, calls) :: attempts, d'', u, Deployer.deployEach_cons_eq_ok hc hrest,
      Deployer.deployEachLogged_cons_eq_ok hrec hlog, hmacs'.trans hmacs, hdistinct, ?_⟩
    intro i hi slot hne
    rcases hdrift i (hmacs ▸ hi) slot hne with hdiff | ⟨attempt, hmem, hleft⟩
    · refine (hout.drift hnd hi hdiff).imp id fun hundo => ?_
      exact ⟨_, List.mem_cons_self, hundo⟩
    · exact .inr ⟨attempt, List.mem_cons_of_mem _ hmem, hleft⟩

/-- After any number of deployments to MAC layers that started without links, whatever was
refused: a MAC layer differs from what was deployed last only where taking an edit back was
refused. An accepted deployment then brings its links to a MAC layer if and only if every slot
where that MAC layer differs is one whose channel changes. -/
theorem deploy_wilful_iff {ids : List μ} (hids : ids.Nodup) {s : σ}
    (hempty : ∀ i ∈ ids, tables s i = Links.empty.channel?) (history : List IntConfiguration)
    (next : IntConfiguration) :
    ∃ attempts d t answer d' t',
      Deployer.deployEach access history (.create .links ids, s)
        = .ok (attempts.map (·.1)) (.links d, t) ∧
      Deployer.deployEachLogged access history (.create .links ids, s)
        = .ok attempts (.links d, t) ∧
      (∀ i ∈ ids, ∀ slot, tables t i slot ≠ d.last.channel? slot → LeftBehind attempts i slot) ∧
      Deployer.deploy access next.given (.links d, t) = .ok answer (.links d', t') ∧
      (answer = true → d'.last = next.links ∧ ∀ i ∈ ids,
        (tables t' i = next.links.channel? ↔ ∀ slot, tables t i slot ≠ d.last.channel? slot →
          d.last.channel? slot ≠ next.links.channel? slot)) := by
  obtain ⟨attempts, d, t, hruns, hlog, hmacs, hlast, hdrift⟩ :=
    deployEach_eq_ok (d := .create ids) hw hids Links.distinct_empty history s
  have hmacs : d.macs = ids := hmacs
  obtain ⟨answer, d', t', calls, hplain, -, -, hout⟩ :=
    deploy_given_eq_ok hw (hmacs ▸ hids) hlast next t
  refine ⟨attempts, d, t, answer, d', t', hruns, hlog, ?_, hplain, ?_⟩
  · intro i hi slot hne
    refine (hdrift i hi slot hne).resolve_left fun hstart => ?_
    exact hstart (congrFun (hempty i hi) slot)
  · rintro rfl
    refine ⟨hout.last_eq, fun i hi => ?_⟩
    rw [hout.table_eq (hmacs ▸ hids) (hmacs ▸ hi), funext_iff]
    refine forall_congr' fun slot => ?_
    by_cases hsame : d.last.channel? slot = next.links.channel? slot
    · simp [hsame]
    · simp [hsame]

omit hw in
/-- A first deployment of which an edit is not taken back, and a second one. -/
theorem deploy_wilful_iff_stuck :
    ∃ attempts d t answer d' t',
      Deployer.deployEachLogged Whims.access [.table [(0, 1)] (by decide)]
        (.create .links [0, 1], Whims.start [false, true, true]) = .ok attempts (.links d, t) ∧
      Deployer.deploy Whims.access (IntConfiguration.row [2]).given (.links d, t)
        = .ok answer (.links d', t') ∧
      (answer = true → (t'.tables 0 = (Links.ofChannels [2]).channel? ↔
        ∀ slot, t.tables 0 slot ≠ d.last.channel? slot →
          d.last.channel? slot ≠ (Links.ofChannels [2]).channel? slot)) := by
  obtain ⟨attempts, d, t, answer, d', t', -, hlog, -, hnext, htaken⟩ :=
    deploy_wilful_iff Whims.wilfulLinks (show [0, 1].Nodup by decide)
      (s := Whims.start [false, true, true]) (fun _ _ => rfl) [.table [(0, 1)] (by decide)]
      (.row [2])
  exact ⟨attempts, d, t, answer, d', t', hlog, hnext, fun h => (htaken h).2 0 (by decide)⟩

omit hw in
/-- The first of two MAC layers takes a link, the second one does not, and then the first one
does not give it back. Taking all links away is accepted without a single call, for the deployer
knows of none, and the first MAC layer keeps its link. -/
theorem deploy_leaves_link_behind :
    ∃ d t,
      Deployer.deployEach Whims.access [.table [(0, 1)] (by decide), .table [] (by decide)]
        (.create .links [0, 1], Whims.start [false, true, true]) = .ok [false, true] (.links d, t) ∧
      d.last = .empty ∧ t.tables 0 0 = some 1 := by
  have hedits : LinkEdit.between .empty ⟨[(0, 1)]⟩ = [.add 0 1] := by
    simp [LinkEdit.between, Links.slots, Links.empty, Links.contains, Links.channel?,
      Links.channelIn?, LinkEdit.ofSlot, LinkEdit.ofChange]
  have hnone : LinkEdit.between .empty ⟨[]⟩ = [] := by
    simp [LinkEdit.between, Links.slots, Links.empty]
  have hfirst : deploy Whims.access ⟨[(0, 1)]⟩
      (⟨[0, 1], .empty, 0⟩, Whims.start [false, true, true])
        = .ok false (⟨[0, 1], .empty, 1⟩, (Whims.start []).withLink 0 0 (some 1)) := by
    simp only [deploy, bind, EStateM.bind, part, hedits]
    rfl
  have hsecond : deploy Whims.access ⟨[]⟩
      (⟨[0, 1], .empty, 1⟩, (Whims.start []).withLink 0 0 (some 1))
        = .ok true (⟨[0, 1], .empty, 1⟩, (Whims.start []).withLink 0 0 (some 1)) := by
    simp only [deploy, bind, EStateM.bind, part, hnone]
    rfl
  exact ⟨_, _, Deployer.deployEach_cons_eq_ok (Deployer.deploy_links_eq_ok hfirst)
    (Deployer.deployEach_cons_eq_ok (Deployer.deploy_links_eq_ok hsecond) rfl), rfl, rfl⟩

end LinkDeployer
end TschLearning
