import TschLearning.Proofs.Action.Settles
import TschLearning.Proofs.Scheduler.Alike
import TschLearning.Proofs.Scheduler.Lessons

/-! The clock of a scheduler that is called with anything whatever as the number of a slot. The
numbers that it accepts tell how many slotframes it has closed, how many deployments it has made
and how its gate stands; a number that it does not accept leaves it as it was. -/

namespace TschLearning

open TschLearning.Action

/-! ### The numbers accepted -/

inductive Signal where
  | boundary (absoluteSlot : Datum)
  | outcome (slot channel : Datum) (success : Bool)

namespace Signal

/-- A natural number beyond the last one. -/
def later? (last : Option Nat) : Datum → Option Nat
  | .int i => if 0 ≤ i ∧ ∀ l ∈ last, (l : Int) < i then some i.toNat else none
  | _ => none

/-- The slot numbers accepted, once another call was made. -/
def heard (taken : List Nat) : Signal → List Nat
  | .boundary x => taken ++ (later? taken.getLast? x).toList
  | .outcome .. => taken

/-- The slot numbers accepted over some calls, in order. -/
def accepted (calls : List Signal) : List Nat := calls.foldl heard []

theorem accepted_concat (past : List Signal) (call : Signal) :
    accepted (past ++ [call]) = heard (accepted past) call := List.foldl_concat ..

/-- The fault of a slot number that is not accepted by a component. -/
def refusal (who : String) (last : Option Nat) : Datum → Fault
  | .int i =>
    if 0 ≤ i then .slotNumberNotLater who i.toNat (last.getD 0) else .badSlotNumber (.int i)
  | x => .badSlotNumber x

theorem later?_eq_some {last : Option Nat} {x : Datum} {asn : Nat} (h : later? last x = some asn) :
    x = .int asn ∧ ∀ l, last = some l → l < asn := by
  unfold later? at h
  split at h
  · split at h
    · rename_i i hi
      cases h
      refine ⟨by rw [Int.toNat_of_nonneg hi.1], fun l hl => ?_⟩
      have hlt := hi.2 l hl
      omega
    · cases h
  · cases h

/-- A number that exceeds the last one is accepted. -/
theorem later?_int_eq_some {last : Option Nat} {asn : Nat} (h : ∀ l, last = some l → l < asn) :
    later? last (.int asn) = some asn := by
  have hlater : 0 ≤ (asn : Int) ∧ ∀ l ∈ last, (l : Int) < asn :=
    ⟨Int.natCast_nonneg asn, fun l hl => Int.ofNat_lt.2 (h l hl)⟩
  simp only [later?, if_pos hlater, Int.toNat_natCast]

/-- What is not accepted: anything but a natural number, and a number that does not exceed the last
one. -/
theorem later?_eq_none_iff {last : Option Nat} {x : Datum} :
    later? last x = none ↔ ∀ n : Nat, x = .int n → ∃ l ∈ last, n ≤ l := by
  constructor
  · rintro h n rfl
    simpa [later?, Option.ite_none_right_eq_some] using h
  · intro h
    cases hx : later? last x with
    | none => rfl
    | some asn =>
      obtain ⟨rfl, hlater⟩ := later?_eq_some hx
      obtain ⟨l, hl, hle⟩ := h asn rfl
      exact absurd (hlater l hl) (Nat.not_lt.2 hle)

/-- A number that is not accepted is none of a slot, or comes too late. -/
theorem checkSlotNumber_of_later?_eq_none {last : Option Nat} {x : Datum}
    (h : later? last x = none) (who : String) :
    checkSlotNumber x = .error (refusal who last x) ∨
      ∃ asn l, checkSlotNumber x = .ok asn ∧ last = some l ∧ asn ≤ l ∧
        refusal who last x = .slotNumberNotLater who asn l := by
  cases x with
  | int i =>
    by_cases hi : 0 ≤ i
    · cases last with
      | none => simp [later?, hi] at h
      | some l =>
        have hle : i ≤ l := by simpa [later?, hi] using h
        refine .inr ⟨i.toNat, l, by simp [checkSlotNumber, hi], rfl, by omega, ?_⟩
        simp [refusal, hi]
    · refine .inl ?_
      simp [checkSlotNumber, refusal, hi]
  | _ => exact .inl rfl

end Signal

/-- The gate of a threshold behind some slotframe boundaries. -/
def Activation.behind (threshold epochs : Nat) : Activation where
  threshold := .int threshold
  count := if threshold ≤ epochs then 0 else epochs
  active := decide (threshold ≤ epochs)

theorem Activation.advance_behind (threshold epochs : Nat) :
    (behind threshold epochs).advance = behind threshold (epochs + 1) := by
  unfold advance behind
  by_cases hopen : threshold ≤ epochs
  · have hle : threshold ≤ epochs + 1 := Nat.le_succ_of_le hopen
    simp [hopen, hle]
  · have hdue : ((threshold : Int) ≤ (epochs : Int) + 1) ↔ threshold ≤ epochs + 1 := by omega
    by_cases hle : threshold ≤ epochs + 1
    · simp [isDue, counted, opened, hopen, hle, Datum.number?, Number.le_int, hdue]
    · simp [isDue, counted, hopen, hle, Datum.number?, Number.le_int, hdue]

theorem Activation.behind_zero (threshold : Nat) :
    behind threshold 0 = ⟨.int threshold, 0, threshold == 0⟩ := by
  cases threshold <;> simp [behind]

namespace ChannelHopping

variable {σ α : Type} [Journal σ] [Arith α]

def hear (needs : Needs σ α) : Signal → Action (ChannelHopping α × σ) Unit
  | .boundary x => onSlotBoundary needs x
  | .outcome slot channel success => recordOutcome slot channel success

/-- A slot number that is not accepted changes nothing, neither the scheduler nor anything around
it. -/
theorem onSlotBoundary_of_later?_eq_none (needs : Needs σ α) {c : ChannelHopping α} {x : Datum}
    (h : Signal.later? c.asn x = none) (s : σ) :
    onSlotBoundary needs x (c, s) = .error (Signal.refusal c.label c.asn x) (c, s) := by
  unfold onSlotBoundary
  obtain hcheck | ⟨asn, l, hcheck, hlast, hle, hrefusal⟩ :=
    Signal.checkSlotNumber_of_later?_eq_none h c.label
  · rw [hcheck]
    rfl
  · rw [hcheck, hrefusal]
    simp only [bind, EStateM.bind, pure, EStateM.pure, Action.ofExcept, part, hlast, if_pos hle]
    rfl

/-- What the slot numbers accepted tell of a scheduler, beside the deployments so far. -/
structure OnTime (slots channels threshold : Nat) (taken : List Nat) (past : List Deployment)
    (c : ChannelHopping α) : Prop where
  valid : c.Valid slots channels
  asn_eq : c.asn = taken.getLast?
  epochs_eq : c.epochs = taken.countP (Closes slots ·)
  activation_eq : c.activation = .behind threshold c.epochs
  deployments : past.length = if taken = [] then 0 else c.epochs + 1

variable {slots channels threshold : Nat} {taken : List Nat} {past : List Deployment}
  {c : ChannelHopping α}

omit [Arith α] in
@[simp] theorem epochs_answered (c : ChannelHopping α) (d : Deployment) :
    (c.answered d).epochs = c.epochs := by
  unfold answered
  split <;> rfl

@[simp] theorem epochs_taught (c : ChannelHopping α) : c.taught.epochs = c.epochs := by
  unfold taught
  split <;> rfl

@[simp] theorem epochs_closed (c : ChannelHopping α) (d : Deployment) :
    (c.closed d).epochs = c.epochs + 1 :=
  (epochs_answered _ d).trans (epochs_taught c.ticked)

theorem activation_closed (c : ChannelHopping α) (d : Deployment) :
    (c.closed d).activation = c.activation.advance := rfl

theorem Valid.closed (hc : c.Valid slots channels) {d : Deployment}
    (hd : IsConfiguration slots channels d.configuration) : (c.closed d).Valid slots channels :=
  { hc.ticked.taught.forgetful.answered hd with }

/-- An accepted slot number: the deployments of the slot are the first one, if it is the first
slot, and one for a slotframe that is closed. -/
theorem OnTime.reached (h : OnTime slots channels threshold taken past c) {asn : Nat}
    {first policy : List Deployment} (hd : Handed slots channels c asn first policy) :
    OnTime slots channels threshold (taken ++ [asn]) (past ++ first ++ policy)
      (c.reached asn first policy) := by
  have hvalid : ({ c with asn := some asn } : ChannelHopping α).Valid slots channels :=
    { h.valid with }
  -- the first slot has a deployment of its own, every later one has not
  obtain ⟨hbegun, hlen, hepochs, hactivation⟩ :
      (first.foldl answered { c with asn := some asn }).Valid slots channels ∧
      (past ++ first).length = c.epochs + 1 ∧
      (first.foldl answered { c with asn := some asn }).epochs = c.epochs ∧
      (first.foldl answered { c with asn := some asn }).activation = c.activation := by
    have hfirst := hd.first_eq
    have hdeployments := h.deployments
    rw [h.asn_eq] at hfirst
    by_cases hnone : taken = []
    · subst hnone
      simp only [List.getLast?_nil, Option.isNone_none, if_true] at hfirst hdeployments
      obtain ⟨answer, rfl⟩ := hfirst
      have hzero : c.epochs = 0 := h.epochs_eq
      refine ⟨hvalid.answered h.valid.configured, ?_, epochs_answered _ _, activation_answered _ _⟩
      rw [List.length_append, hdeployments, hzero]
      rfl
    · rw [if_neg hnone] at hdeployments
      obtain ⟨l, hl⟩ := Option.isSome_iff_exists.1 (List.getLast?_isSome.2 hnone)
      rw [hl, Option.isNone_some, if_neg Bool.false_ne_true] at hfirst
      subst hfirst
      refine ⟨hvalid, ?_, rfl, rfl⟩
      rwa [List.append_nil]
  have hne : taken ++ [asn] ≠ [] := List.append_ne_nil_of_right_ne_nil _ (List.cons_ne_nil _ _)
  have hcount : (taken ++ [asn]).countP (Closes slots ·)
      = c.epochs + if Closes slots asn then 1 else 0 := by
    rw [List.countP_append, ← h.epochs_eq]
    by_cases hcloses : Closes slots asn <;> simp [hcloses]
  have hasn : (c.reached asn first policy).asn = (taken ++ [asn]).getLast? := by
    rw [asn_reached, List.getLast?_concat]
  have hpolicy := hd.policy_eq
  unfold ChannelHopping.reached at hasn ⊢
  generalize first.foldl answered { c with asn := some asn } = begun at *
  by_cases hcloses : Closes slots asn
  · rw [if_pos hcloses] at hpolicy hcount
    obtain ⟨d, rfl, hconfiguration⟩ := hpolicy
    have hmore : (begun.closed d).epochs = c.epochs + 1 := by rw [epochs_closed, hepochs]
    exact {
      valid := hbegun.closed hconfiguration
      asn_eq := hasn
      epochs_eq := hmore.trans hcount.symm
      activation_eq := by
        show (begun.closed d).activation = .behind threshold (begun.closed d).epochs
        rw [activation_closed, hactivation, h.activation_eq, Activation.advance_behind, hmore]
      deployments := by
        rw [if_neg hne, List.length_append, hlen]
        exact congrArg (· + 1) hmore.symm }
  · rw [if_neg hcloses] at hpolicy hcount
    subst hpolicy
    exact {
      valid := hbegun
      asn_eq := hasn
      epochs_eq := hepochs.trans hcount.symm
      activation_eq := by
        show begun.activation = .behind threshold begun.epochs
        rw [hactivation, hepochs, h.activation_eq]
      deployments := by
        rw [if_neg hne, List.append_nil, hlen]
        exact congrArg (· + 1) hepochs.symm }

omit [Arith α] in
theorem OnTime.informed (h : OnTime slots channels threshold taken past c) (slot channel : Nat)
    (success : Bool) :
    OnTime slots channels threshold taken past (c.informed slot channel success) := by
  have hvalid := h.valid.informed slot channel success
  unfold ChannelHopping.informed at hvalid ⊢
  split at hvalid
  · rename_i hactive
    rw [if_pos hactive]
    exact { h with valid := hvalid }
  · rename_i hactive
    rw [if_neg hactive]
    exact { h with valid := hvalid }

variable {needs : Needs σ α}

/-- One call, with its deployments written down. -/
theorem settles_hear (hneeds : needs.Proper channels)
    (h : OnTime slots channels threshold taken past c) (call : Signal) (s : σ) :
    Settles (hear needs.recording call) (c, past, s) fun _ p =>
      OnTime slots channels threshold (call.heard taken) p.2.1 p.1 := by
  have hcoupled := hneeds.coupled slots
  cases call with
  | boundary x =>
    show Settles (onSlotBoundary needs.recording x) (c, past, s) fun _ p => OnTime slots channels
      threshold (taken ++ (Signal.later? taken.getLast? x).toList) p.2.1 p.1
    rw [← h.asn_eq]
    cases hx : Signal.later? c.asn x with
    | none =>
      unfold Settles
      rw [onSlotBoundary_of_later?_eq_none _ hx]
      simpa using h
    | some asn =>
      obtain ⟨rfl, hlater⟩ := Signal.later?_eq_some hx
      obtain ⟨_, ⟨_, _⟩, _, ⟨_, _⟩, hrec, -, first, policy, hd, rfl, rfl, hw⟩ :=
        twin_iff.1 (hcoupled.twin_onSlotBoundary (s := (past, s)) (t := s) rfl h.valid hlater)
      cases hw
      exact settles_of_ends (ends_iff.2 ⟨_, _, hrec, h.reached hd⟩)
  | outcome slot channel success =>
    have hrest : ∀ s' ch, checkIndex (possessive ownerLabel) "slot" c.table.slots slot = .ok s' →
        checkIndex (possessive ownerLabel) "channel" c.table.channels channel = .ok ch →
        Settles (recordOutcome (σ := List Deployment × σ) slot channel success) (c, past, s)
          fun _ p => OnTime slots channels threshold taken p.2.1 p.1 := by
      intro s' ch hs hch
      obtain ⟨rfl, hslot⟩ := checkIndex_eq_ok hs
      obtain ⟨rfl, hchannel⟩ := checkIndex_eq_ok hch
      rw [h.valid.slots_table] at hslot
      rw [h.valid.channels_table] at hchannel
      obtain ⟨_, ⟨_, _⟩, _, ⟨_, _⟩, hrec, -, rfl, rfl, hw⟩ :=
        twin_iff.1 (hcoupled.twin_recordOutcome (s := (past, s)) (t := s) rfl h.valid
          (Int.ofNat_lt.1 hslot) (Int.ofNat_lt.1 hchannel) success)
      cases hw
      exact settles_of_ends (ends_iff.2 ⟨_, _, hrec, h.informed s' ch success⟩)
    show Settles (recordOutcome (σ := List Deployment × σ) slot channel success) (c, past, s)
      fun _ p => OnTime slots channels threshold taken p.2.1 p.1
    -- an index out of range is found before anything is changed
    cases hs : checkIndex (possessive ownerLabel) "slot" c.table.slots slot with
    | error f =>
      unfold recordOutcome
      simp only [settles_bind, settles_part, settles_ofExcept, hs]
      exact h
    | ok s' =>
      cases hch : checkIndex (possessive ownerLabel) "channel" c.table.channels channel with
      | error f =>
        unfold recordOutcome
        simp only [settles_bind, settles_part, settles_ofExcept, hs, hch]
        exact h
      | ok ch => exact hrest s' ch hs hch

omit [Arith α] in
/-- A scheduler does the same whether its deployments are written down or not, also when it is
called wrongly. -/
theorem Needs.Proper.alike (h : needs.Proper channels) (slots : Nat) (hpos : 0 < channels) :
    Needs.Alike slots channels (fun cs => ∀ i ∈ cs, (0 : Int) ≤ i ∧ i < channels)
      (fun configuration (p : List Deployment × σ) s =>
        p.2 = s ∧ IsConfiguration slots channels configuration) needs.recording needs where
  channels_pos := hpos
  admits _ _ hcs := hcs
  in_use hst := by
    obtain ⟨cs, rfl, hlen, hcs⟩ := hst.2
    exact ⟨cs, rfl, hlen, hcs⟩
  deploy {cs configuration p s} hlen hcs := by
    obtain ⟨ds, t⟩ := p
    rintro ⟨rfl, hconfiguration⟩
    obtain ⟨answer, u, hd, -⟩ := ends_iff.1 (h.deploy_ends (Datum.ofInts cs) t)
    simp only [recording, hd, true_and]
    cases answer with
    | true => exact ⟨cs, rfl, hlen, hcs⟩
    | false => exact hconfiguration
  uniform configuration := by
    rintro ⟨ds, t⟩ s ⟨rfl, hconfiguration⟩
    obtain ⟨u, t', hu, -⟩ := ends_iff.1 (h.uniform_ends t)
    simpa only [recording, Draws.outside, Action.outside, hu, true_and] using hconfiguration
  below configuration := by
    rintro ⟨ds, t⟩ s ⟨rfl, hconfiguration⟩
    obtain ⟨i, t', hi, hrange⟩ := ends_iff.1 (h.below_ends t)
    simpa only [recording, Draws.outside, Action.outside, hi, true_and] using
      And.intro hrange hconfiguration
  note {configuration p s} n := by
    rintro ⟨rfl, hconfiguration⟩
    exact ⟨rfl, rfl, hconfiguration⟩

theorem agree_hear {τ : Type} [Journal τ] {Ok : List Int → Prop}
    {Held : List Datum → σ → τ → Prop} {needs' : Needs τ α}
    (h : Needs.Alike slots channels Ok Held needs needs') (call : Signal) :
    Agree (Around (Using (α := α) slots channels Held)) Eq (hear needs call) (hear needs' call) := by
  cases call with
  | boundary x => exact agree_onSlotBoundary h x
  | outcome slot channel success => exact agree_recordOutcome h slot channel success

theorem attemptEach_hear_eq_ok (hneeds : needs.Proper channels)
    (h : OnTime slots channels threshold [] [] c) (calls : List Signal) (s : σ) :
    ∃ outcomes c' past t,
      attemptEach (hear needs.recording) calls (c, [], s) = .ok outcomes (c', past, t) ∧
      attemptEach (hear needs) calls (c, s) = .ok outcomes (c', t) ∧
      OnTime slots channels threshold (Signal.accepted calls) past c' := by
  have hrun : Ends (attemptEach (hear needs.recording) calls) (c, [], s) fun _ p =>
      OnTime slots channels threshold (Signal.accepted ([] ++ calls)) p.2.1 p.1 := by
    refine ends_attemptEach (I := fun calls (p : ChannelHopping α × List Deployment × σ) =>
      OnTime slots channels threshold (Signal.accepted calls) p.2.1 p.1) ?_ ?_
    · intro past call _ p hp
      rw [Signal.accepted_concat]
      exact settles_hear hneeds hp call p.2.2
    · exact h
  have halike := hneeds.alike slots h.valid.channels_pos
  obtain ⟨_, ⟨_, _⟩, hplain, outcomes, ⟨c', past, t⟩, hrec, htime, rfl, rfl, -, -, rfl, -⟩ :=
    ends_iff.1 ((Agree.attemptEach (agree_hear halike) calls).ends (s := (c, [], s)) (t := (c, s))
      ⟨rfl, h.valid.slots_table, h.valid.channels_table, rfl, h.valid.configured⟩ hrun)
  exact ⟨outcomes, c', past, t, hrec, hplain, htime⟩

end ChannelHopping
end TschLearning
