import TschLearning.Proofs.Deployer.Atomic
import TschLearning.Proofs.Deployer.Refusals
import TschLearning.Proofs.Deployer.Sequences

/-! Deployments of hopping sequences to simulated MAC layers, each with slotframe dimensions of
its own. What the first pass over them asks is all that the second one needs, so a deployment
that does not go through leaves every one of them as it was, whichever way it comes out. -/

namespace TschLearning

namespace Mac

variable {κ : Type} {m : Mac κ} {slots channels : Int} {cs : List Int}

/-- The faults of a hopping sequence that is not one for a slotframe: another length is refused,
a channel beyond the slotframe is an index out of range. -/
inductive Rejects (slots channels : Int) (cs : List Int) : Fault → Prop where
  | length {name : String} (h : (cs.length : Int) ≠ slots) :
      Rejects slots channels cs (.sequenceLength name cs.length (.int slots))
  | channel {c : Int} (hlen : (cs.length : Int) = slots) (hmem : c ∈ cs)
      (hout : ¬(0 ≤ c ∧ c < channels)) :
      Rejects slots channels cs
        (.indexOutOfRange (possessive ownerLabel) "channel" c (.int channels))

theorem Rejects.not_inSlotframe {why : Fault} (h : Rejects slots channels cs why) :
    ¬InSlotframe slots channels cs := by
  cases h with
  | length h => exact fun hin => h hin.1
  | channel hlen hmem hout => exact fun hin => hout (hin.2 _ hmem)

/-- The first item that is no channel of the slotframe is the fault of a row. -/
theorem mapM_checkChannel_of_not_forall (hc : m.channels = .int channels)
    (h : ¬∀ c ∈ cs, 0 ≤ c ∧ c < channels) :
    ∃ c ∈ cs, ¬(0 ≤ c ∧ c < channels) ∧ (Datum.ofInts cs).mapM m.checkChannel
      = .error (.indexOutOfRange (possessive ownerLabel) "channel" c (.int channels)) := by
  induction cs with
  | nil => simp at h
  | cons c rest ih =>
    have hitem : m.checkChannel (.int c) = if 0 ≤ c ∧ c < channels then .ok c.toNat
        else .error (.indexOutOfRange (possessive ownerLabel) "channel" c (.int channels)) := by
      rw [checkChannel, hc, checkIndexBelow_int]
      rfl
    rw [Datum.ofInts, List.map_cons, List.mapM_cons, hitem]
    by_cases hin : 0 ≤ c ∧ c < channels
    · have hrest : ¬∀ c' ∈ rest, 0 ≤ c' ∧ c' < channels := by
        intro hall
        exact h (List.forall_mem_cons.2 ⟨hin, hall⟩)
      obtain ⟨c', hmem, hout, he⟩ := ih hrest
      rw [Datum.ofInts] at he
      refine ⟨c', List.mem_cons_of_mem _ hmem, hout, ?_⟩
      rw [if_pos hin, he]
      rfl
    · refine ⟨c, List.mem_cons_self, hin, ?_⟩
      rw [if_neg hin]
      rfl

/-- A MAC layer accepts the hopping sequences for its slotframe and finds a fault in all
others. -/
theorem accepts_or_rejects (hs : m.slots = .int slots) (hc : m.channels = .int channels)
    (cs : List Int) :
    InSlotframe slots channels cs ∧ m.Accepts cs ∨
      ∃ why, Rejects slots channels cs why ∧
        m.checkSequence (Datum.ofInts cs) = .error why := by
  by_cases hin : InSlotframe slots channels cs
  · exact .inl ⟨hin, accepts_of_inSlotframe hs hc hin⟩
  have hcount : (Datum.ofInts cs).length = cs.length := List.length_map _
  have hlength : Datum.same (.int (Datum.ofInts cs).length) m.slots
      = decide ((cs.length : Int) = slots) := by
    rw [hs, Datum.same_int, hcount]
  right
  by_cases hlen : (cs.length : Int) = slots
  · obtain ⟨c, hmem, hout, he⟩ :=
      mapM_checkChannel_of_not_forall hc fun hall => hin ⟨hlen, hall⟩
    refine ⟨_, .channel hlen hmem hout, ?_⟩
    simp only [checkSequence, hlength, hlen, he, bind, Except.bind]
    rfl
  · refine ⟨.sequenceLength m.label cs.length (.int slots), .length hlen, ?_⟩
    rw [checkSequence, hlength, decide_eq_false hlen, hs, hcount]
    rfl

/-- The MAC layer with the sequence that was deployed last, if there is one. -/
def following (last : Option HoppingSequence) (m : Mac κ) : Mac κ :=
  match last with
  | none => m
  | some sequence => m.withSequence sequence.channels

@[simp] theorem slots_following (last : Option HoppingSequence) (m : Mac κ) :
    (m.following last).slots = m.slots := by
  cases last <;> rfl

@[simp] theorem channels_following (last : Option HoppingSequence) (m : Mac κ) :
    (m.following last).channels = m.channels := by
  cases last <;> rfl

theorem withSequence_following (last : Option HoppingSequence) (cs : List Int) (m : Mac κ) :
    (m.following last).withSequence cs = m.following (some ⟨cs⟩) := by
  cases last <;> rfl

end Mac

/-- The row that a configuration stands for at a deployer of hopping sequences. -/
def Configuration.row : Configuration → List Datum
  | .channels items => items
  | .pairs entries => entries.map (·.1)

namespace Deployer

open TschLearning.Action

variable {μ σ : Type} [Journal σ] {access : MacAccess μ σ}

/-- A row that is no row of integers fails before anything is done. -/
theorem settles_deploy_sequence {d : SequenceDeployer μ} {s : σ} {configuration : Configuration}
    {post : Except Fault Bool → Deployer μ × σ → Prop} :
    Settles (deploy access configuration) (.sequence d, s) post ↔
      match HoppingSequence.ofItems configuration.row with
      | .ok row =>
        Settles (SequenceDeployer.deploy access row) (d, s) fun r t => post r (.sequence t.1, t.2)
      | .error f => post (.error f) (.sequence d, s) := by
  have hdeploy : Settles (deploy access configuration) (.sequence d, s) post ↔
      Settles (Action.ofExcept (HoppingSequence.ofItems configuration.row) >>= fun row =>
        within (fun _ => d) (fun d _ => Deployer.sequence d) (SequenceDeployer.deploy access row))
        (.sequence d, s) post := by
    cases configuration <;> exact Iff.rfl
  rw [hdeploy, settles_bind, settles_ofExcept]
  cases HoppingSequence.ofItems configuration.row with
  | ok row => exact settles_within
  | error f => exact Iff.rfl

/-- Tries deployments one after the other; gives what comes of each of them. -/
def attemptEach (access : MacAccess μ σ) :
    List Configuration → Action (Deployer μ × σ) (List (Except Fault Bool))
  | [] => pure []
  | c :: rest => do
    let outcome ← attempt (deploy access c)
    return outcome :: (← attemptEach access rest)

theorem agree_attemptEach (access : MacAccess μ σ) (history : List Configuration) :
    Agree (Beside (Deployer μ) Entered) Eq (attemptEach access.recording history)
      (attemptEach access history) := by
  induction history with
  | nil => exact agree_pure rfl
  | cons c history ih =>
    unfold attemptEach
    refine (agree_deployment access c).attempt.bind ?_
    rintro outcome _ rfl
    refine ih.bind ?_
    rintro outcomes _ rfl
    exact agree_pure rfl

end Deployer

namespace SequenceDeployer

open TschLearning.Action MacAccess Mac

section Calls

variable {μ σ : Type} {access : MacAccess μ σ} {cs : List Int}

/-- If no MAC layer refuses the sequence, the calls hand it to one after the other. -/
theorem ends_setAll_handed {P : σ → Prop} {todo : List μ} {s : σ}
    (h : Ends (setAll access cs todo) s fun e t => e.2 = none ∧ P t) (calls : List (MacCall μ)) :
    Ends (setAll access.recording cs todo) (calls, s) fun e t =>
      e.2 = none ∧ t.1 = calls ++ todo.map (handed cs none) ∧ P t.2 := by
  induction todo generalizing s calls with
  | nil => exact ⟨rfl, (List.append_nil calls).symm, h.2⟩
  | cons i todo ih =>
    unfold setAll at h ⊢
    simp only [ends_bind, recording, ends_refusal?_logged] at h ⊢
    refine h.mono ?_
    intro r t ht
    cases r with
    | some why => cases ht.1
    | none =>
      simp only [ends_bind, ends_pure] at ht ⊢
      refine (ih ht _).mono ?_
      intro e u hu
      exact ⟨hu.1, by simp [hu.2.1, handed], hu.2.2⟩

/-- How a deployment to MAC layers of the given dimensions comes out: what it gives, the deployer
after it, and its calls. -/
inductive Verdict (slots channels : μ → Int) (d : SequenceDeployer μ) (cs : List Int) :
    Except Fault Bool → SequenceDeployer μ → List (MacCall μ) → Prop where
  | taken (h : ∀ i ∈ d.macs, InSlotframe (slots i) (channels i) cs) :
      Verdict slots channels d cs (.ok true) { d with last := some ⟨cs⟩ }
        (d.macs.map (checked cs) ++ d.macs.map (handed cs none))
  | refused {before : List μ} {i : μ} {after : List μ} {why : Fault}
      (hmacs : d.macs = before ++ i :: after) (hwhy : Rejects (slots i) (channels i) cs why)
      (hrefusal : why.isRefusal = true) :
      Verdict slots channels d cs (.ok false) { d with failures := d.failures + 1 }
        (before.map (checked cs) ++ [⟨i, .checkSequence cs, some why⟩])
  | raised {before : List μ} {i : μ} {after : List μ} {why : Fault}
      (hmacs : d.macs = before ++ i :: after) (hwhy : Rejects (slots i) (channels i) cs why)
      (hrefusal : why.isRefusal = false) :
      Verdict slots channels d cs (.error why) d
        (before.map (checked cs) ++ [⟨i, .checkSequence cs, some why⟩])

namespace Verdict

variable {slots channels : μ → Int} {d d' : SequenceDeployer μ} {outcome : Except Fault Bool}
  {made : List (MacCall μ)}

theorem macs_eq (h : Verdict slots channels d cs outcome d' made) : d'.macs = d.macs := by
  cases h <;> rfl

theorem eq_ok_true_iff (h : Verdict slots channels d cs outcome d' made) :
    outcome = .ok true ↔ ∀ i ∈ d.macs, InSlotframe (slots i) (channels i) cs := by
  have hnot : ∀ {before i after why}, d.macs = before ++ i :: after →
      Rejects (slots i) (channels i) cs why →
      ¬∀ i ∈ d.macs, InSlotframe (slots i) (channels i) cs := by
    intro before i after why hmacs hwhy hall
    exact hwhy.not_inSlotframe (hall i (by simp [hmacs]))
  cases h with
  | taken h => simpa using h
  | refused hmacs hwhy => simpa using hnot hmacs hwhy
  | raised hmacs hwhy => simpa using hnot hmacs hwhy

/-- A deployment that does not go through asks MAC layers for a sequence and hands over none. -/
theorem checks_of_ne (h : Verdict slots channels d cs outcome d' made)
    (hne : outcome ≠ .ok true) : ∀ call ∈ made, call.request = .checkSequence cs := by
  have hchecks : ∀ (before : List μ) (i : μ) (why : Fault),
      ∀ call ∈ before.map (checked cs) ++ [⟨i, .checkSequence cs, some why⟩],
        call.request = .checkSequence cs := by
    intro before i why call hcall
    rw [List.mem_append, List.mem_map, List.mem_singleton] at hcall
    obtain ⟨j, -, rfl⟩ | rfl := hcall
    · rfl
    · rfl
  cases h with
  | taken h => exact absurd rfl hne
  | refused => exact hchecks _ _ _
  | raised => exact hchecks _ _ _

/-- A deployment that does not go through fails at one of the MAC layers, by its length or by one
of its channels. -/
theorem fault_of_ne (h : Verdict slots channels d cs outcome d' made) (hne : outcome ≠ .ok true) :
    d'.last = d.last ∧ ∃ i ∈ d.macs,
      ((cs.length : Int) ≠ slots i ∧ outcome = .ok false ∧ d'.failures = d.failures + 1 ∨
        ∃ c ∈ cs, ¬(0 ≤ c ∧ c < channels i) ∧ d'.failures = d.failures ∧ outcome = .error
          (.indexOutOfRange (possessive ownerLabel) "channel" c (.int (channels i)))) := by
  cases h with
  | taken h => exact absurd rfl hne
  | @refused before i after why hmacs hwhy hrefusal =>
    refine ⟨rfl, i, by simp [hmacs], ?_⟩
    cases hwhy with
    | length hlen => exact .inl ⟨hlen, rfl, rfl⟩
    | channel => cases hrefusal
  | @raised before i after why hmacs hwhy hrefusal =>
    refine ⟨rfl, i, by simp [hmacs], ?_⟩
    cases hwhy with
    | length hlen => cases hrefusal
    | channel hlen hmem hout => exact .inr ⟨_, hmem, hout, rfl, rfl⟩

/-- No MAC layer ever refuses a sequence that is handed over. -/
theorem refusal_eq_none (h : Verdict slots channels d cs outcome d' made) :
    ∀ call ∈ made, ∀ other, call.request = .setSequence other → call.refusal = none := by
  intro call hcall other hset
  by_cases hok : outcome = .ok true
  · cases h with
    | taken h =>
      rw [List.mem_append, List.mem_map, List.mem_map] at hcall
      obtain ⟨i, -, rfl⟩ | ⟨i, -, rfl⟩ := hcall
      · cases hset
      · rfl
    | refused => cases hok
    | raised => cases hok
  · rw [h.checks_of_ne hok call hcall] at hset
    cases hset

end Verdict

end Calls

/-! ### One deployment -/

section Check

variable {μ κ σ : Type} [Journal σ] {shelf : Shelf μ (Mac κ) σ} (labels : μ → String) {i : μ}
  {m : Mac κ} {s : σ} {cs : List Int}

theorem settles_check_of_accepts (hm : shelf.get? i s = some m) (h : m.Accepts cs)
    (calls : List (MacCall μ)) :
    Settles (refusal? ((Mac.access shelf labels).recording.checkSequence i cs)) (calls, s)
      fun r t => r = .ok none ∧ t = (calls ++ [checked cs i], shelf.put i m s) := by
  unfold Accepts at h
  simp only [settles_refusal?, recording, settles_logged, Mac.access]
  rw [shelf.settles_update hm, h]
  simp only [bind, Except.bind, pure, Except.pure, checked, and_self]

theorem settles_check_of_error (hm : shelf.get? i s = some m) {why : Fault}
    (h : m.checkSequence (Datum.ofInts cs) = .error why) (calls : List (MacCall μ)) :
    Settles (refusal? ((Mac.access shelf labels).recording.checkSequence i cs)) (calls, s)
      fun r t => r = (if why.isRefusal then .ok (some why) else .error why) ∧
        t = (calls ++ [⟨i, .checkSequence cs, some why⟩], s) := by
  simp only [settles_refusal?, recording, settles_logged, Mac.access]
  rw [shelf.settles_update hm, h]
  cases hr : why.isRefusal with
  | true => simp [bind, Except.bind, hr]
  | false => simp [bind, Except.bind, hr]

end Check

section Deployment

variable {μ κ σ ν : Type} [DecidableEq μ] [Journal σ] {shelf : Shelf μ (Mac κ) σ} {rest : σ → ν}
  (hlaw : shelf.Lawful rest) (labels : μ → String) {ids : List μ} {mac : μ → Mac κ}
  {slots channels : μ → Int} {r : ν}

include hlaw

/-- The MAC layers are asked up to the first one that finds a fault in the sequence. -/
theorem settles_checkAll (hs : ∀ i ∈ ids, (mac i).slots = .int (slots i))
    (hc : ∀ i ∈ ids, (mac i).channels = .int (channels i)) (cs : List Int) {s : σ}
    (h : shelf.Shows rest ids mac r s) {todo : List μ} (htodo : todo ⊆ ids)
    (calls : List (MacCall μ)) :
    Settles (checkAll (Mac.access shelf labels).recording cs todo) (calls, s) fun outcome t =>
      shelf.Shows rest ids mac r t.2 ∧
      ((∀ i ∈ todo, InSlotframe (slots i) (channels i) cs) ∧ outcome = .ok none ∧
          t.1 = calls ++ todo.map (checked cs) ∨
        ∃ before i after why, todo = before ++ i :: after ∧
          Rejects (slots i) (channels i) cs why ∧
          outcome = (if why.isRefusal then .ok (some why) else .error why) ∧
          t.1 = calls ++ (before.map (checked cs) ++ [⟨i, .checkSequence cs, some why⟩])) := by
  induction todo generalizing s calls with
  | nil => exact ⟨h, .inl ⟨by simp, rfl, (List.append_nil calls).symm⟩⟩
  | cons i todo ih =>
    rw [List.cons_subset] at htodo
    have hget := h.get?_eq i htodo.1
    rw [checkAll, settles_bind]
    rcases accepts_or_rejects (hs i htodo.1) (hc i htodo.1) cs with ⟨hin, hacc⟩ | ⟨why, hrej, he⟩
    · have hnext := h.put hlaw htodo.1 (mac i)
      rw [Function.update_eq_self] at hnext
      refine (settles_check_of_accepts labels hget hacc calls).mono ?_
      rintro _ _ ⟨rfl, rfl⟩
      refine (ih hnext htodo.2 _).mono ?_
      rintro outcome t ⟨ht, ⟨hall, rfl, hcalls⟩ | ⟨before, j, after, why, rfl, hrej, rfl, hcalls⟩⟩
      · exact ⟨ht, .inl ⟨List.forall_mem_cons.2 ⟨hin, hall⟩, rfl, by simp [hcalls]⟩⟩
      · exact ⟨ht, .inr ⟨i :: before, j, after, why, rfl, hrej, rfl, by simp [hcalls]⟩⟩
    · refine (settles_check_of_error labels hget he calls).mono ?_
      rintro _ _ ⟨rfl, rfl⟩
      cases hr : why.isRefusal with
      | true =>
        simp only [if_true, settles_pure]
        exact ⟨h, .inr ⟨[], i, todo, why, rfl, hrej, by simp [hr], rfl⟩⟩
      | false =>
        simp only [Bool.false_eq_true, if_false]
        exact ⟨h, .inr ⟨[], i, todo, why, rfl, hrej, by simp [hr], rfl⟩⟩

omit [DecidableEq μ] in
theorem ends_giveUp_nil {d : SequenceDeployer μ} {why : Fault} {calls : List (MacCall μ)} {s : σ} :
    Ends (giveUp (Mac.access shelf labels).recording [] why) (d, calls, s) fun answer t =>
      answer = false ∧ t = ({ d with failures := d.failures + 1 }, calls,
        Journal.enter (.ofComponent .deployer label (.deploymentFailed why)) s) := by
  have hrollback : rollback (Mac.access shelf labels).recording d [] = pure () := by
    unfold rollback
    cases d.last with
    | none => rfl
    | some previous => rfl
  unfold giveUp
  simp only [hrollback, ends_bind, ends_part, ends_outside, ends_change, ends_note, ends_pure]
  exact ⟨hlaw.obstacle?_eq_none _ _, trivial, rfl⟩

/-- One deployment from any state. The MAC layers have the sequence if it goes through, and are as
they were if it does not. -/
theorem settles_deploy {d : SequenceDeployer μ}
    (hs : ∀ i ∈ d.macs, (mac i).slots = .int (slots i))
    (hc : ∀ i ∈ d.macs, (mac i).channels = .int (channels i)) {s : σ}
    (h : shelf.Shows rest d.macs (fun i => (mac i).following d.last) r s)
    (calls : List (MacCall μ)) (cs : List Int) :
    Settles (deploy (Mac.access shelf labels).recording ⟨cs⟩) (d, calls, s) fun outcome t =>
      ∃ made, Verdict slots channels d cs outcome t.1 made ∧ t.2.1 = calls ++ made ∧
        shelf.Shows rest d.macs (fun i => (mac i).following t.1.last) r t.2.2 := by
  have hs' : ∀ i ∈ d.macs, ((mac i).following d.last).slots = .int (slots i) := by simpa using hs
  have hc' : ∀ i ∈ d.macs, ((mac i).following d.last).channels = .int (channels i) := by
    simpa using hc
  unfold deploy
  simp only [settles_bind, settles_part, settles_outside]
  refine (settles_checkAll hlaw labels hs' hc' cs h (List.Subset.refl d.macs) calls).mono ?_
  rintro outcome ⟨calls', t⟩
    ⟨ht, ⟨hall, rfl, hcalls⟩ | ⟨before, i, after, why, hmacs, hrej, rfl, hcalls⟩⟩
  · have hacc : ∀ i ∈ d.macs, ((mac i).following d.last).Accepts cs := fun i hi =>
      accepts_of_inSlotframe (hs' i hi) (hc' i hi) (hall i hi)
    have hset := ends_setAll hlaw labels ht hacc (List.Subset.refl d.macs)
    apply settles_of_ends
    simp only [ends_bind, ends_outside]
    refine (ends_setAll_handed hset calls').mono ?_
    rintro ⟨updated, refusal⟩ ⟨calls'', u⟩ ⟨rfl, hmade, hu⟩
    simp only [ends_bind, ends_change, ends_note, ends_pure]
    refine ⟨hlaw.obstacle?_eq_none _ _, _, .taken hall, ?_, ?_⟩
    · show calls'' = _
      simp only at hcalls hmade
      rw [hmade, hcalls, List.append_assoc]
    · refine Shelf.Shows.enter hlaw { hu with get?_eq := fun i hi => ?_ } _
      rw [hu.get?_eq i hi, if_pos hi, withSequence_following]
      rfl
  · cases hr : why.isRefusal with
    | true =>
      simp only [if_true]
      apply settles_of_ends
      refine (ends_giveUp_nil hlaw labels).mono ?_
      rintro _ _ ⟨rfl, rfl⟩
      exact ⟨_, .refused hmacs hrej hr, hcalls, ht.enter hlaw _⟩
    | false =>
      simp only [Bool.false_eq_true, if_false]
      exact ⟨_, .raised hmacs hrej hr, hcalls, ht⟩

end Deployment

/-! ### Any number of deployments -/

section History

variable {μ κ σ ν : Type} [DecidableEq μ] [Journal σ] {shelf : Shelf μ (Mac κ) σ} {rest : σ → ν}

/-- The MAC layers have the sequence of their deployer, which none of them has refused. -/
structure Leads (shelf : Shelf μ (Mac κ) σ) (rest : σ → ν) (ids : List μ) (mac : μ → Mac κ) (r : ν)
    (d : SequenceDeployer μ) (calls : List (MacCall μ)) (s : σ) : Prop where
  macs_eq : d.macs = ids
  shows : shelf.Shows rest ids (fun i => (mac i).following d.last) r s
  refusal_eq_none : ∀ call ∈ calls, ∀ cs, call.request = .setSequence cs → call.refusal = none

variable (hlaw : shelf.Lawful rest) (labels : μ → String) {ids : List μ} {mac : μ → Mac κ}
  {slots channels : μ → Int} (hs : ∀ i ∈ ids, (mac i).slots = .int (slots i))
  (hc : ∀ i ∈ ids, (mac i).channels = .int (channels i)) {r : ν} {d : SequenceDeployer μ}
  {calls : List (MacCall μ)} {s : σ}

include hlaw hs hc

theorem Leads.settles_deploy (h : Leads shelf rest ids mac r d calls s) (cs : List Int) :
    Settles (deploy (Mac.access shelf labels).recording ⟨cs⟩) (d, calls, s) fun outcome t =>
      ∃ made, Verdict slots channels d cs outcome t.1 made ∧ t.2.1 = calls ++ made ∧
        Leads shelf rest ids mac r t.1 t.2.1 t.2.2 := by
  have hids := h.macs_eq
  subst hids
  refine (SequenceDeployer.settles_deploy hlaw labels hs hc h.shows calls cs).mono ?_
  rintro outcome ⟨d', calls', t⟩ ⟨made, hv, hcalls, ht⟩
  obtain rfl : calls' = calls ++ made := hcalls
  refine ⟨made, hv, rfl, hv.macs_eq, ht, ?_⟩
  intro call hcall other hset
  rcases List.mem_append.1 hcall with hold | hnew
  · exact h.refusal_eq_none call hold other hset
  · exact hv.refusal_eq_none call hnew other hset

/-- Whatever is handed over, no device has anything but the sequence of the deployer. -/
theorem Leads.ends_attemptEach (h : Leads shelf rest ids mac r d calls s)
    (history : List Configuration) :
    Ends (Deployer.attemptEach (Mac.access shelf labels).recording history)
      (.sequence d, calls, s) fun _ t =>
        ∃ d', t.1 = .sequence d' ∧ Leads shelf rest ids mac r d' t.2.1 t.2.2 := by
  induction history generalizing d calls s with
  | nil => exact ⟨d, rfl, h⟩
  | cons c history ih =>
    unfold Deployer.attemptEach
    simp only [ends_bind, ends_attempt, ends_pure, Deployer.settles_deploy_sequence]
    split
    · rename_i row hitems
      refine (h.settles_deploy hlaw labels hs hc row.channels).mono ?_
      rintro outcome t ⟨-, -, -, ht⟩
      exact ih ht
    · exact ih h

/-- Deployments of hopping sequences are all or nothing, the first one as any later one. After any
history, the next one goes through exactly if its row is a sequence for the slotframe of every
device; then every device has it. Otherwise it is answered with false or breaks off with an index
out of range, no device is handed anything, and all of them and the deployer's sequence are as
they were. No device ever refuses a sequence that is handed over. -/
theorem deploy_allOrNothing (hget : ∀ i ∈ ids, shelf.get? i s = some (mac i))
    (history : List Configuration) (next : List Int) :
    ∃ outcomes d calls t,
      Deployer.attemptEach (Mac.access shelf labels) history (.create .hoppingSequence ids, s)
        = .ok outcomes (.sequence d, t) ∧
      Deployer.attemptEach (Mac.access shelf labels).recording history
        (.create .hoppingSequence ids, [], s) = .ok outcomes (.sequence d, calls, t) ∧
      d.macs = ids ∧ (∀ i ∈ ids, shelf.get? i t = some ((mac i).following d.last)) ∧
      ∃ outcome d' made u,
        attempt (Deployer.deploy (Mac.access shelf labels) (.channels (Datum.ofInts next)))
          (.sequence d, t) = .ok outcome (.sequence d', u) ∧
        attempt (Deployer.deploy (Mac.access shelf labels).recording
          (.channels (Datum.ofInts next))) (.sequence d, calls, t)
            = .ok outcome (.sequence d', calls ++ made, u) ∧
        (∀ i ∈ ids, shelf.get? i u = some ((mac i).following d'.last)) ∧
        (outcome = .ok true ↔ ∀ i ∈ ids, InSlotframe (slots i) (channels i) next) ∧
        (outcome = .ok true → d' = { d with last := some ⟨next⟩ } ∧
          made = ids.map (checked next) ++ ids.map (handed next none)) ∧
        (outcome ≠ .ok true → d'.last = d.last ∧
          (∀ call ∈ made, call.request = .checkSequence next) ∧
          ∃ i ∈ ids,
            ((next.length : Int) ≠ slots i ∧ outcome = .ok false ∧
                d'.failures = d.failures + 1 ∨
              ∃ c ∈ next, ¬(0 ≤ c ∧ c < channels i) ∧ d'.failures = d.failures ∧ outcome = .error
                (.indexOutOfRange (possessive ownerLabel) "channel" c (.int (channels i))))) ∧
        ∀ call ∈ calls ++ made, ∀ cs, call.request = .setSequence cs → call.refusal = none := by
  have hstart : Leads shelf rest ids mac (rest s) (.create ids) [] s :=
    ⟨rfl, ⟨rfl, hget⟩, by simp⟩
  -- the history
  have hrun := hstart.ends_attemptEach hlaw labels hs hc history
  have hplain := (Deployer.agree_attemptEach (Mac.access shelf labels) history).ends
    (s := (.sequence (.create ids), [], s)) (t := (.sequence (.create ids), s)) ⟨rfl, rfl⟩ hrun
  obtain ⟨_, ⟨_, _⟩, hruns, outcomes, ⟨D, calls, t⟩, hrec, ⟨d, hd, hleads⟩, rfl, rfl, rfl⟩ :=
    ends_iff.1 hplain
  obtain rfl : D = .sequence d := hd
  -- the next deployment
  have hnext : Settles (Deployer.deploy (Mac.access shelf labels).recording
      (.channels (Datum.ofInts next))) (.sequence d, calls, t) fun outcome u =>
        ∃ d' made, u.1 = .sequence d' ∧ u.2.1 = calls ++ made ∧
          Verdict slots channels d next outcome d' made ∧
          Leads shelf rest ids mac (rest s) d' (calls ++ made) u.2.2 := by
    rw [Deployer.settles_deploy_sequence, Configuration.row, HoppingSequence.ofItems_ofInts]
    refine (hleads.settles_deploy hlaw labels hs hc next).mono ?_
    rintro outcome ⟨d', _, u⟩ ⟨made, hv, rfl, hu⟩
    exact ⟨d', made, rfl, rfl, hv, hu⟩
  have hplain' := (Deployer.agree_deployment (Mac.access shelf labels)
    (.channels (Datum.ofInts next))).attempt.ends (s := (.sequence d, calls, t))
      (t := (.sequence d, t)) ⟨rfl, rfl⟩ (ends_attempt.2 hnext)
  obtain ⟨_, ⟨_, _⟩, hplain', outcome, ⟨D, calls', u⟩, hrec', ⟨d', made, hd, hcalls, hv, hleads'⟩,
    rfl, rfl, rfl⟩ := ends_iff.1 hplain'
  obtain rfl : D = .sequence d' := hd
  obtain rfl : calls' = calls ++ made := hcalls
  refine ⟨outcomes, d, calls, t, hruns, hrec, hleads.macs_eq, hleads.shows.get?_eq, outcome, d',
    made, u, hplain', hrec', hleads'.shows.get?_eq, ?_, ?_, ?_, hleads'.refusal_eq_none⟩
  · rw [hv.eq_ok_true_iff, hleads.macs_eq]
  · rintro rfl
    rw [← hleads.macs_eq]
    cases hv with
    | taken => exact ⟨rfl, rfl⟩
  · intro hne
    obtain ⟨hlast, hfault⟩ := hv.fault_of_ne hne
    rw [hleads.macs_eq] at hfault
    exact ⟨hlast, hv.checks_of_ne hne, hfault⟩

end History

def unevenMac (i : Nat) : Mac Unit :=
  { Pan.crampedMac i with channels := .int (if i = 0 then 3 else 2) }

def uneven : Pan Permuted Float := { Pan.cramped with macs := #[unevenMac 0, unevenMac 1] }

/-- A sequence with a channel that only the first device has goes to neither of them. -/
theorem deploy_allOrNothing_uneven :
    ∃ outcomes d t outcome d' u,
      Deployer.attemptEach Pan.macAccess
        [.channels (Datum.ofInts [0, 1]), .channels (Datum.ofInts [1])]
        (.create .hoppingSequence [0, 1], uneven) = .ok outcomes (.sequence d, t) ∧
      attempt (Deployer.deploy Pan.macAccess (.channels (Datum.ofInts [0, 2])))
        (.sequence d, t) = .ok outcome (.sequence d', u) ∧
      outcome ≠ .ok true ∧ d'.last = d.last ∧ ∀ i ∈ [0, 1], u.macs[i]? = t.macs[i]? := by
  have hget : ∀ i ∈ [0, 1], Pan.shelf.get? i uneven = some (unevenMac i) := by
    simp [Pan.shelf, uneven]
  obtain ⟨outcomes, d, calls, t, hruns, -, -, ht, outcome, d', made, u, hnext, -, hu, hiff, -,
      hkept, -⟩ :=
    deploy_allOrNothing Pan.lawful_shelf (fun i => Mac.labelOf (.text (deviceName i)))
      (fun _ _ => rfl) (fun _ _ => rfl) hget [.channels (Datum.ofInts [0, 1]), .channels (Datum.ofInts [1])] [0, 2]
  have hne : outcome ≠ .ok true := by
    rw [Ne, hiff]
    decide
  have hlast := (hkept hne).1
  refine ⟨outcomes, d, t, outcome, d', u, hruns, hnext, hne, hlast, fun i hi => ?_⟩
  exact (hu i hi).trans ((congrArg (fun x => some ((unevenMac i).following x)) hlast).trans
    (ht i hi).symm)

end SequenceDeployer
end TschLearning
