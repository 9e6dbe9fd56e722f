import TschLearning.Proofs.Deployer.Configurations
import TschLearning.Proofs.Deployer.Wilful

/-! Deployments of hopping sequences to MAC layers that refuse what they please. A sequence is
accepted by all of them or by none; what stands between the two is a MAC layer that does not take
the previous sequence back either. -/

namespace TschLearning

namespace SequenceDeployer

open TschLearning.Action MacAccess

variable {μ σ : Type}

def checked (channels : List Int) (i : μ) : MacCall μ := ⟨i, .checkSequence channels, none⟩

def handed (channels : List Int) (refusal : Option Fault) (i : μ) : MacCall μ :=
  ⟨i, .setSequence channels, refusal⟩

/-- The calls that hand over the previous sequence again, if there is one. -/
def restoring (last : Option HoppingSequence) (refusals : μ → Option Fault) (updated : List μ) :
    List (MacCall μ) :=
  match last with
  | none => []
  | some previous => updated.map fun i => handed previous.channels (refusals i) i

variable [DecidableEq μ]

/-- What MAC layers have after some of them took a sequence. -/
def after (channels : List Int) (took : List μ) (h : μ → Option (List Int)) :
    μ → Option (List Int) := fun i => if i ∈ took then some channels else h i

/-- What MAC layers have after the previous sequence was handed over again. -/
def restored (last : Option HoppingSequence) (refusals : μ → Option Fault) (updated : List μ)
    (h : μ → Option (List Int)) : μ → Option (List Int) := fun i =>
  match last with
  | none => h i
  | some previous => if i ∈ updated ∧ refusals i = none then some previous.channels else h i

/-- How a deployment can come out: its answer, the deployer after it, what the MAC layers have
then, and its calls. -/
inductive Outcome (d : SequenceDeployer μ) (channels : List Int) (h : μ → Option (List Int)) :
    Bool → SequenceDeployer μ → (μ → Option (List Int)) → List (MacCall μ) → Prop where
  | taken : Outcome d channels h true { d with last := some ⟨channels⟩ }
      (after channels d.macs h) (d.macs.map (checked channels) ++ d.macs.map (handed channels none))
  | unacceptable {before : List μ} {i : μ} {rest : List μ} {why : Fault}
      (hmacs : d.macs = before ++ i :: rest) :
      Outcome d channels h false { d with failures := d.failures + 1 } h
        (before.map (checked channels) ++ [⟨i, .checkSequence channels, some why⟩])
  | givenUp {before : List μ} {i : μ} {rest : List μ} {why : Fault} (refusals : μ → Option Fault)
      (hmacs : d.macs = before ++ i :: rest) :
      Outcome d channels h false { d with failures := d.failures + 1 }
        (restored d.last refusals before (after channels before h))
        (d.macs.map (checked channels) ++ before.map (handed channels none)
          ++ [handed channels (some why) i] ++ restoring d.last refusals before)

@[simp] theorem after_nil (channels : List Int) (h : μ → Option (List Int)) :
    after channels [] h = h := by
  funext i
  simp [after]

@[simp] theorem restored_nil (last : Option HoppingSequence) (refusals : μ → Option Fault)
    (h : μ → Option (List Int)) : restored last refusals [] h = h := by
  funext i
  cases last <;> simp [restored]

omit [DecidableEq μ] in
@[simp] theorem restoring_nil (last : Option HoppingSequence) (refusals : μ → Option Fault) :
    restoring last refusals [] = [] := by
  cases last <;> rfl

variable [Journal σ] {access : MacAccess μ σ} {held : σ → μ → Option (List Int)}
  (hw : access.WilfulSequences held) (channels : List Int)

include hw

/-- The MAC layers are asked up to the first one that refuses. -/
theorem ends_checkAll_recording (todo : List μ) (calls : List (MacCall μ)) (s : σ) :
    Ends (checkAll access.recording channels todo) (calls, s) fun r t =>
      held t.2 = held s ∧
        ((r = none ∧ t.1 = calls ++ todo.map (checked channels)) ∨
          ∃ before i rest why, todo = before ++ i :: rest ∧ r = some why ∧
            t.1 = calls ++ before.map (checked channels)
              ++ [⟨i, .checkSequence channels, some why⟩]) := by
  induction todo generalizing calls s with
  | nil => exact ⟨rfl, .inl ⟨rfl, (List.append_nil calls).symm⟩⟩
  | cons i todo ih =>
    unfold checkAll
    simp only [ends_bind, recording, ends_refusal?_logged]
    refine (hw.check i channels s).mono ?_
    intro r t ht
    cases r with
    | some why =>
      refine ⟨ht, .inr ⟨[], i, todo, why, rfl, rfl, ?_⟩⟩
      simp
    | none =>
      refine (ih _ t).mono ?_
      rintro r u ⟨hu, ⟨rfl, hc⟩ | ⟨before, j, rest, why, rfl, rfl, hc⟩⟩
      · exact ⟨hu.trans ht, .inl ⟨rfl, by simp [hc, checked]⟩⟩
      · exact ⟨hu.trans ht, .inr ⟨i :: before, j, rest, why, rfl, rfl, by simp [hc, checked]⟩⟩

theorem ends_setAll_recording (todo : List μ) (calls : List (MacCall μ)) (s : σ) :
    Ends (setAll access.recording channels todo) (calls, s) fun r t =>
      (r = (todo, none) ∧ t.1 = calls ++ todo.map (handed channels none) ∧
        held t.2 = after channels todo (held s)) ∨
      ∃ before i rest why, todo = before ++ i :: rest ∧ r = (before, some why) ∧
        t.1 = calls ++ before.map (handed channels none) ++ [handed channels (some why) i] ∧
        held t.2 = after channels before (held s) := by
  induction todo generalizing calls s with
  | nil => exact .inl ⟨rfl, (List.append_nil calls).symm, (after_nil ..).symm⟩
  | cons i todo ih =>
    unfold setAll
    simp only [ends_bind, recording, ends_refusal?_logged]
    refine (hw.set i channels s).mono ?_
    intro r t ht
    cases r with
    | some why => exact .inr ⟨[], i, todo, why, rfl, rfl, by simp [handed], by simpa using ht⟩
    | none =>
      have hfirst : ∀ took, after channels took (held t) = after channels (i :: took) (held s) := by
        intro took
        funext j
        by_cases hj : j = i <;> simp [after, ht, hj]
      simp only [ends_bind, ends_pure]
      refine (ih _ t).mono ?_
      rintro r u (⟨rfl, hc, hu⟩ | ⟨before, j, rest, why, rfl, rfl, hc, hu⟩)
      · exact .inl ⟨rfl, by simp [hc, handed], hu.trans (hfirst todo)⟩
      · exact .inr ⟨i :: before, j, rest, why, rfl, rfl, by simp [hc, handed], hu.trans (hfirst _)⟩

theorem ends_restoreAll_recording {previous : HoppingSequence} {updated : List μ}
    (hnd : updated.Nodup) (calls : List (MacCall μ)) (s : σ) :
    Ends (restoreAll access.recording previous.channels updated) (calls, s) fun _ t =>
      ∃ refusals, t.1 = calls ++ restoring (some previous) refusals updated ∧
        held t.2 = restored (some previous) refusals updated (held s) := by
  induction updated generalizing calls s with
  | nil => exact ⟨fun _ => none, (List.append_nil calls).symm, (restored_nil ..).symm⟩
  | cons i updated ih =>
    rw [List.nodup_cons] at hnd
    unfold restoreAll
    simp only [ends_bind, recording, ends_refusal?_logged]
    refine (hw.set i previous.channels s).mono ?_
    intro r t ht
    -- the answer of the first call beside those of the others
    have hcalls : ∀ refusals : μ → Option Fault,
        calls ++ [⟨i, .setSequence previous.channels, r⟩]
            ++ restoring (some previous) refusals updated
          = calls ++ restoring (some previous) (Function.update refusals i r) (i :: updated) := by
      intro refusals
      have hrest : updated.map (fun j => handed previous.channels (refusals j) j)
          = updated.map fun j => handed previous.channels (Function.update refusals i r j) j :=
        List.map_congr_left fun j hj => by
          have hne : j ≠ i := fun e => hnd.1 (e ▸ hj)
          rw [Function.update_of_ne hne]
      simp only [restoring, hrest, List.map_cons, Function.update_self, List.append_assoc,
        List.singleton_append]
      rfl
    have hheld : ∀ refusals : μ → Option Fault,
        restored (some previous) refusals updated (held t)
          = restored (some previous) (Function.update refusals i r) (i :: updated) (held s) := by
      intro refusals
      funext j
      by_cases hj : j = i
      · subst hj
        cases r <;> simp [restored, ht, hnd.1]
      · cases r <;> simp [restored, ht, hj]
    have hnext : ∀ u : List (MacCall μ) × σ, (∃ refusals,
        u.1 = calls ++ [⟨i, .setSequence previous.channels, r⟩]
            ++ restoring (some previous) refusals updated ∧
          held u.2 = restored (some previous) refusals updated (held t)) →
        ∃ refusals, u.1 = calls ++ restoring (some previous) refusals (i :: updated) ∧
          held u.2 = restored (some previous) refusals (i :: updated) (held s) := by
      rintro u ⟨refusals, hc, hu⟩
      exact ⟨_, hc.trans (hcalls refusals), hu.trans (hheld refusals)⟩
    cases r with
    | none => exact (ih hnd.2 _ t).mono fun _ u => hnext u
    | some why =>
      simp only [ends_bind, ends_note]
      refine ⟨hw.discreet.obstacle?_eq_none _ _, (ih hnd.2 _ _).mono fun _ u hu => hnext u ?_⟩
      rw [hw.discreet.view_enter] at hu
      exact hu

/-- A deployment is taken back as far as the MAC layers let it. -/
theorem ends_rollback_recording (d : SequenceDeployer μ) {updated : List μ} (hnd : updated.Nodup)
    (calls : List (MacCall μ)) (s : σ) :
    Ends (rollback access.recording d updated) (calls, s) fun _ t =>
      ∃ refusals, t.1 = calls ++ restoring d.last refusals updated ∧
        held t.2 = restored d.last refusals updated (held s) := by
  unfold rollback
  cases d.last with
  | some previous => exact ends_restoreAll_recording hw hnd calls s
  | none =>
    dsimp only
    split
    · exact ⟨fun _ => none, (List.append_nil calls).symm, rfl⟩
    · rw [ends_note]
      refine ⟨hw.discreet.obstacle?_eq_none _ _, fun _ => none, (List.append_nil calls).symm, ?_⟩
      exact hw.discreet.view_enter _ _

theorem ends_giveUp_recording (d : SequenceDeployer μ) {updated : List μ} (hnd : updated.Nodup)
    (why : Fault) (calls : List (MacCall μ)) (s : σ) :
    Ends (giveUp access.recording updated why) (d, calls, s) fun answer t =>
      answer = false ∧ t.1 = { d with failures := d.failures + 1 } ∧
        ∃ refusals, t.2.1 = calls ++ restoring d.last refusals updated ∧
          held t.2.2 = restored d.last refusals updated (held s) := by
  unfold giveUp
  simp only [ends_bind, ends_part, ends_outside, ends_change, ends_note, ends_pure]
  refine (ends_rollback_recording hw d hnd calls s).mono ?_
  rintro _ ⟨calls', t⟩ ⟨refusals, hc, ht⟩
  refine ⟨hw.discreet.obstacle?_eq_none _ _, trivial, rfl, refusals, hc, ?_⟩
  exact (hw.discreet.view_enter _ _).trans ht

/-- A deployment ends in one of three ways. -/
theorem ends_deploy_recording {d : SequenceDeployer μ} (hnd : d.macs.Nodup) (s : σ) :
    Ends (deploy access.recording ⟨channels⟩) (d, [], s) fun answer t =>
      t.1.macs = d.macs ∧ Outcome d channels (held s) answer t.1 (held t.2.2) t.2.1 := by
  unfold deploy
  simp only [ends_bind, ends_part, ends_outside]
  refine (ends_checkAll_recording hw channels d.macs [] s).mono ?_
  rintro r ⟨calls, t⟩ ⟨ht, ⟨rfl, hc⟩ | ⟨before, i, rest, why, hmacs, rfl, hc⟩⟩
  · obtain rfl : calls = d.macs.map (checked channels) := hc
    simp only [ends_bind, ends_outside]
    refine (ends_setAll_recording hw channels d.macs _ t).mono ?_
    rintro r ⟨calls, u⟩ (⟨rfl, hc, hu⟩ | ⟨before, i, rest, why, hmacs, rfl, hc, hu⟩)
    · obtain rfl : calls = _ := hc
      simp only [ends_bind, ends_change, ends_note, ends_pure]
      refine ⟨hw.discreet.obstacle?_eq_none _ _, rfl, ?_⟩
      show Outcome d channels (held s) true _ (held (Journal.enter _ u)) _
      rw [hw.discreet.view_enter, hu, ht]
      exact .taken
    · obtain rfl : calls = _ := hc
      have hbefore : before.Nodup := (List.nodup_append.1 (hmacs ▸ hnd)).1
      refine (ends_giveUp_recording hw d hbefore why _ u).mono ?_
      rintro _ ⟨d', calls, v⟩ ⟨rfl, hd, refusals, hc, hv⟩
      obtain rfl : d' = _ := hd
      obtain rfl : calls = _ := hc
      refine ⟨rfl, ?_⟩
      show Outcome d channels (held s) false _ (held v) _
      rw [hv, hu, ht]
      exact .givenUp refusals hmacs
  · obtain rfl : calls = _ := hc
    refine (ends_giveUp_recording hw d List.nodup_nil why _ t).mono ?_
    rintro _ ⟨d', calls, v⟩ ⟨rfl, hd, refusals, hc, hv⟩
    obtain rfl : d' = _ := hd
    rw [restoring_nil, List.append_nil] at hc
    obtain rfl : calls = _ := hc
    refine ⟨rfl, ?_⟩
    show Outcome d channels (held s) false _ (held v) _
    rw [hv, restored_nil, ht]
    exact .unacceptable hmacs

theorem deploy_given_eq_ok {d : SequenceDeployer μ} (hnd : d.macs.Nodup) (c : IntConfiguration)
    (s : σ) :
    ∃ answer d' t calls,
      Deployer.deploy access c.given (.sequence d, s) = .ok answer (.sequence d', t) ∧
      Deployer.deploy access.recording c.given (.sequence d, [], s)
        = .ok answer (.sequence d', calls, t) ∧
      d'.macs = d.macs ∧
      Outcome d c.sequence.channels (held s) answer d' (held t) calls := by
  have hrec := ends_deploy_recording hw c.sequence.channels hnd s
  have hplain := (agree_deploy access c.sequence).ends (s := (d, [], s)) (t := (d, s))
    ⟨rfl, rfl⟩ hrec
  obtain ⟨_, ⟨_, _⟩, hp, answer, ⟨d', calls, t⟩, hr, ⟨hmacs, hout⟩, rfl, rfl, rfl⟩ :=
    ends_iff.1 hplain
  exact ⟨answer, d', t, calls, Deployer.deploy_sequence_eq_ok hp,
    Deployer.deploy_sequence_eq_ok hr, hmacs, hout⟩

omit hw [Journal σ] in
theorem Outcome.failures_eq {d d' : SequenceDeployer μ} {h h' : μ → Option (List Int)}
    {answer : Bool} {calls : List (MacCall μ)} (hout : Outcome d channels h answer d' h' calls) :
    d'.failures = d.failures + [answer].count false := by
  cases hout <;> rfl

theorem deployEach_eq_ok {d : SequenceDeployer μ} (hnd : d.macs.Nodup)
    (history : List IntConfiguration) (s : σ) :
    ∃ answers d' t,
      Deployer.deployEach access history (.sequence d, s) = .ok answers (.sequence d', t) ∧
      d'.macs = d.macs ∧ d'.failures = d.failures + answers.count false := by
  induction history generalizing d s with
  | nil => exact ⟨[], d, s, rfl, rfl, rfl⟩
  | cons c history ih =>
    obtain ⟨answer, d', t, calls, hc, -, hmacs, hout⟩ := deploy_given_eq_ok hw hnd c s
    obtain ⟨answers, d'', u, hrest, hmacs', hfail⟩ := ih (hmacs ▸ hnd) t
    refine ⟨answer :: answers, d'', u, Deployer.deployEach_cons_eq_ok hc hrest,
      hmacs'.trans hmacs, ?_⟩
    rw [hfail, hout.failures_eq, Nat.add_assoc, ← List.count_append, List.singleton_append]

/-- After any number of deployments, whatever was refused: a deployment that is answered with true
has brought its sequence to every MAC layer. One that is answered with false leaves what was
deployed last as it is and counts as a failure; either a check was refused and nothing was set,
or the MAC layers in front of the refusing one had taken the sequence, and each of them is asked
once to take the previous one back. One that does not have the previous sequence then has refused
to. -/
theorem deploy_wilful {ids : List μ} (hids : ids.Nodup) (history : List IntConfiguration)
    (next : IntConfiguration) (s : σ) :
    ∃ answers d t,
      Deployer.deployEach access history (.create .hoppingSequence ids, s)
        = .ok answers (.sequence d, t) ∧
      d.failures = answers.count false ∧
      ∃ answer d' t' calls,
        Deployer.deploy access next.given (.sequence d, t) = .ok answer (.sequence d', t') ∧
        Deployer.deploy access.recording next.given (.sequence d, [], t)
          = .ok answer (.sequence d', calls, t') ∧
        match answer with
        | true =>
          d'.last = some next.sequence ∧ d'.failures = d.failures ∧
            ∀ i ∈ ids, held t' i = some next.sequence.channels
        | false =>
          d'.last = d.last ∧ d'.failures = d.failures + 1 ∧
            ∃ before i rest why, ids = before ++ i :: rest ∧
              ((calls = before.map (checked next.sequence.channels)
                    ++ [⟨i, .checkSequence next.sequence.channels, some why⟩] ∧
                  held t' = held t) ∨
                ∃ refusals,
                  calls = ids.map (checked next.sequence.channels)
                    ++ before.map (handed next.sequence.channels none)
                    ++ [handed next.sequence.channels (some why) i]
                    ++ restoring d.last refusals before ∧
                  (∀ j ∉ before, held t' j = held t j) ∧
                  ∀ previous, d.last = some previous →
                    (∀ j ∈ before, held t' j = some
                      (if refusals j = none then previous.channels
                        else next.sequence.channels)) ∧
                    ((∀ j ∈ ids, held t j = some previous.channels) →
                      ∀ j ∈ ids, held t' j ≠ some previous.channels →
                        j ∈ before ∧ refusals j ≠ none)) := by
  obtain ⟨answers, d, t, hruns, hmacs, hfail⟩ :=
    deployEach_eq_ok (d := .create ids) hw hids history s
  have hmacs : d.macs = ids := hmacs
  obtain ⟨answer, d', t', calls, hplain, hrec, -, hout⟩ :=
    deploy_given_eq_ok hw (hmacs ▸ hids) next t
  refine ⟨answers, d, t, hruns, hfail.trans (Nat.zero_add _), answer, d', t', calls, hplain, hrec,
    ?_⟩
  generalize hheld : held t' = h' at hout
  cases hout with
  | taken => exact ⟨rfl, rfl, fun i hi => by rw [after, hmacs, if_pos hi]⟩
  | @unacceptable before i rest why hsplit =>
    exact ⟨rfl, rfl, before, i, rest, why, hmacs ▸ hsplit, .inl ⟨rfl, rfl⟩⟩
  | @givenUp before i rest why refusals hsplit =>
    have huntouched : ∀ j ∉ before, restored d.last refusals before
        (after next.sequence.channels before (held t)) j = held t j := by
      intro j hj
      cases d.last <;> simp [restored, after, hj]
    refine ⟨rfl, rfl, before, i, rest, why, hmacs ▸ hsplit, .inr ⟨refusals, by rw [hmacs],
      huntouched, fun previous hprevious => ?_⟩⟩
    have hback : ∀ j ∈ before, restored d.last refusals before
        (after next.sequence.channels before (held t)) j = some
          (if refusals j = none then previous.channels else next.sequence.channels) := by
      intro j hj
      rw [hprevious]
      by_cases hr : refusals j = none <;> simp [restored, after, hj, hr]
    refine ⟨hback, fun hall j hj hne => ?_⟩
    have hj' : j ∈ before := by
      by_contra hnot
      exact hne ((huntouched j hnot).trans (hall j hj))
    refine ⟨hj', fun hr => hne ?_⟩
    rw [hback j hj', if_pos hr]

omit hw in
/-- Two MAC layers take a sequence. Then the second one refuses another one, which the first one
has by then and keeps. -/
theorem deploy_wilful_stuck :
    ∃ answers d t d' t',
      Deployer.deployEach Whims.access [.row [0, 1]] (.create .hoppingSequence [0, 1],
        Whims.start [false, false, false, false, false, false, false, true, true])
          = .ok answers (.sequence d, t) ∧
      d.failures = answers.count false ∧
      Deployer.deploy Whims.access (IntConfiguration.row [1, 0]).given (.sequence d, t)
        = .ok false (.sequence d', t') ∧
      d'.last = d.last ∧ t'.sequences 0 = some [1, 0] := by
  obtain ⟨answers, d, t, hruns, hfail, answer, d', t', calls, hplain, -, h⟩ :=
    deploy_wilful Whims.wilfulSequences (show [0, 1].Nodup by decide) [.row [0, 1]] (.row [1, 0])
      (Whims.start [false, false, false, false, false, false, false, true, true])
  have hfirst : Deployer.deployEach Whims.access [.row [0, 1]] (.create .hoppingSequence [0, 1],
      Whims.start [false, false, false, false, false, false, false, true, true])
        = .ok [true] (.sequence ⟨[0, 1], some ⟨[0, 1]⟩, 0⟩,
          (Whims.start [false, false, false, true, true]).withSequence 0 [0, 1]
            |>.withSequence 1 [0, 1]) := rfl
  rw [hfirst] at hruns
  cases hruns
  have hnext : Deployer.deploy Whims.access (IntConfiguration.row [1, 0]).given
      (.sequence ⟨[0, 1], some ⟨[0, 1]⟩, 0⟩,
        (Whims.start [false, false, false, true, true]).withSequence 0 [0, 1]
          |>.withSequence 1 [0, 1])
        = .ok false (.sequence ⟨[0, 1], some ⟨[0, 1]⟩, 1⟩,
          (Whims.start []).withSequence 0 [0, 1] |>.withSequence 1 [0, 1]
            |>.withSequence 0 [1, 0]) := rfl
  rw [hnext] at hplain
  cases hplain
  exact ⟨_, _, _, _, _, hfirst, hfail, hnext, h.1, rfl⟩

end SequenceDeployer
end TschLearning
