import TschLearning.Proofs.Action.Agree
import TschLearning.Proofs.Mac.Calls
import TschLearning.Proofs.Scheduler.Clock
import TschLearning.Proofs.Scheduler.Slots

/-! Schedulers in surroundings that answer alike. Called alike, they end or fail alike, and what
relates the surroundings holds again. Channel schedulers may also differ in how many transmissions
they have counted: neither count is ever looked at, so they go on differing in nothing else. -/

namespace TschLearning

open TschLearning.Action

variable {σ τ κ μ α β γ : Type}

/-- Sources of draws that yield the same. -/
structure Draws.Alike (R : σ → τ → Prop) (draws : Draws σ α) (draws' : Draws τ α) : Prop where
  uniform : Agree R Eq draws.uniform draws'.uniform
  below : ∀ bound, Agree R Eq (draws.below bound) (draws'.below bound)

/-! ### Parts of a scheduler -/

section Parts

variable [Journal σ] [Journal τ] {R : σ → τ → Prop}
  (hnote : ∀ n, Agree R Eq (note n : Action σ Unit) (note n : Action τ Unit))

include hnote

theorem Settling.agree_epochPassed (sender : Activation → String) :
    Agree (Beside Activation R) Eq (epochPassed sender) (epochPassed sender) := by
  unfold epochPassed
  apply agree_part.bind
  rintro gate _ rfl
  split
  · exact agree_pure rfl
  apply (agree_change _).bind
  intro _ _ _
  apply agree_part.bind
  rintro counted _ rfl
  apply (hnote _).note_beside.bind
  intro _ _ _
  split
  · exact agree_pure rfl
  apply (agree_change _).bind
  intro _ _ _
  apply agree_part.bind
  rintro opened _ rfl
  apply (hnote _).note_beside.bind
  intro _ _ _
  exact agree_pure rfl

variable [Arith α] {draws : Draws σ α} {draws' : Draws τ α}

omit hnote [Journal σ] [Journal τ] in
theorem Selection.agree_explores (h : draws.Alike R draws') (epsilon : α) (mayExplore : Bool) :
    Agree R Eq (explores draws epsilon mayExplore) (explores draws' epsilon mayExplore) := by
  unfold explores
  cases mayExplore with
  | false => exact agree_pure rfl
  | true =>
    apply h.uniform.bind
    rintro u _ rfl
    exact agree_pure rfl

theorem Selection.agree_chooseChannel (h : draws.Alike R draws') (table : ValueTable α)
    (epsilon : α) (slot : Datum) (mayExplore : Bool) :
    Agree R Eq (chooseChannel draws table epsilon slot mayExplore)
      (chooseChannel draws' table epsilon slot mayExplore) := by
  unfold chooseChannel
  apply (agree_ofExcept _).bind
  rintro slot _ rfl
  apply (agree_explores h _ _).bind
  rintro explored _ rfl
  split
  · apply (h.below _).bind
    rintro i _ rfl
    exact (hnote _).bind fun _ _ _ => agree_pure rfl
  · exact (hnote _).bind fun _ _ _ => agree_pure rfl

theorem Selection.agree_chooseSlot (h : draws.Alike R draws') (table : ValueTable α)
    (peaking : PeakingTable α) (epsilon : α) (mayExplore : Bool) :
    Agree R Eq (chooseSlot draws table peaking epsilon mayExplore)
      (chooseSlot draws' table peaking epsilon mayExplore) := by
  unfold chooseSlot
  apply (agree_explores h _ _).bind
  rintro explored _ rfl
  split
  · exact (hnote _).bind fun _ _ _ => agree_pure rfl
  · exact (hnote _).bind fun _ _ _ => agree_pure rfl

theorem Lookahead.agree_apply (p : Parameters α) (outcomes : OutcomeTracker)
    (configuration : List Datum) :
    Agree (Beside (ValueTable α) R) Eq (apply p outcomes configuration)
      (apply p outcomes configuration) := by
  unfold apply
  apply agree_part.bind
  rintro table _ rfl
  apply Agree.bind (P := Eq)
  · apply agree_forM
    intro r
    exact (agree_change _).bind fun _ _ _ => (hnote _).note_beside
  · intro _ _ _
    split
    · exact agree_throw _
    · exact agree_pure rfl

theorem SlotReward.agree_apply (p : Parameters α) (slot : Datum) (success : Bool) :
    Agree (Beside (ValueTable α) R) Eq (apply p slot success) (apply p slot success) := by
  unfold apply
  apply agree_part.bind
  rintro table _ rfl
  apply (agree_ofExcept _).bind
  rintro r _ rfl
  apply (agree_change _).bind
  intro _ _ _
  apply (hnote _).note_beside.bind
  intro _ _ _
  exact agree_pure rfl

end Parts

/-! ### Channel schedulers -/

namespace ChannelHopping

def recounted (c : ChannelHopping α) (successes attempts : Nat) : ChannelHopping α :=
  { c with successes, attempts }

/-- A change that does not depend on the counts of transmissions. -/
def IgnoresCounts (f : ChannelHopping α → ChannelHopping α) : Prop :=
  ∀ c m n, ∃ m' n', f (c.recounted m n) = (f c).recounted m' n'

/-- Schedulers that `S` relates differ at most in their counts, and go on being related. -/
structure Likeness (S : ChannelHopping α → ChannelHopping α → Prop) : Prop where
  eq_recounted : ∀ {c d}, S c d → ∃ m n, d = c.recounted m n
  change : ∀ {c d f}, IgnoresCounts f → S c d → S (f c) (f d)

theorem likeness_eq : Likeness (Eq : ChannelHopping α → ChannelHopping α → Prop) where
  eq_recounted h := ⟨_, _, h.symm⟩
  change _ h := congrArg _ h

theorem likeness_recounted : Likeness fun c d : ChannelHopping α => ∃ m n, d = c.recounted m n where
  eq_recounted h := h
  change := by
    rintro c _ f hf ⟨m, n, rfl⟩
    exact hf c m n

/-- Schedulers that are related, in surroundings that are. -/
def Akin (S : ChannelHopping α → ChannelHopping α → Prop) (R : σ → τ → Prop)
    (p : ChannelHopping α × σ) (q : ChannelHopping α × τ) : Prop :=
  S p.1 q.1 ∧ R p.2 q.2

variable {S : ChannelHopping α → ChannelHopping α → Prop} {R : σ → τ → Prop}

theorem agree_part_akin (hS : Likeness S) {P : β → γ → Prop}
    {f : ChannelHopping α → Action (ChannelHopping α × σ) β}
    {g : ChannelHopping α → Action (ChannelHopping α × τ) γ}
    (h : ∀ c m n, Agree (Akin S R) P (f c) (g (c.recounted m n))) :
    Agree (Akin S R) P (part >>= f) (part >>= g) := by
  rintro ⟨c, s⟩ ⟨d, t⟩ hc
  obtain ⟨m, n, rfl⟩ := hS.eq_recounted hc.1
  exact h c m n (c, s) (c.recounted m n, t) hc

theorem agree_change_akin (hS : Likeness S) {f : ChannelHopping α → ChannelHopping α}
    (h : IgnoresCounts f) : Agree (Akin S R) Eq (change f) (change f) := by
  rintro ⟨c, s⟩ ⟨d, t⟩ hc
  exact ⟨rfl, hS.change h hc.1, hc.2⟩

theorem agree_outside_akin {P : β → γ → Prop} {x : Action σ β} {y : Action τ γ}
    (h : Agree R P x y) : Agree (Akin S R) P x.outside y.outside := by
  rintro ⟨c, s⟩ ⟨d, t⟩ ⟨hS, hst⟩
  have h := h s t hst
  simp only [Action.outside]
  split at h
  · rename_i hx hy
    simp only [hx, hy]
    exact ⟨h.1, hS, h.2⟩
  · rename_i hx hy
    simp only [hx, hy]
    exact ⟨h.1, hS, h.2⟩
  · exact h.elim

theorem agree_within_akin (hS : Likeness S) {get : ChannelHopping α → κ}
    {put : κ → ChannelHopping α → ChannelHopping α}
    (hget : ∀ c m n, get (c.recounted m n) = get c) (hput : ∀ k, IgnoresCounts (put k))
    {P : β → γ → Prop} {x : Action (κ × σ) β} {y : Action (κ × τ) γ}
    (h : Agree (Beside κ R) P x y) :
    Agree (Akin S R) P (Action.within get put x) (Action.within get put y) := by
  rintro ⟨c, s⟩ ⟨d, t⟩ ⟨hcd, hst⟩
  obtain ⟨m, n, rfl⟩ := hS.eq_recounted hcd
  have h := h (get c, s) (get c, t) ⟨rfl, hst⟩
  simp only [Action.within, hget]
  split at h
  · rename_i hx hy
    obtain ⟨hP, hk, hst⟩ := h
    simp only [hx, hy]
    exact ⟨hP, by rw [hk]; exact hS.change (hput _) hcd, hst⟩
  · rename_i hx hy
    obtain ⟨hf, hk, hst⟩ := h
    simp only [hx, hy]
    exact ⟨hf, by rw [hk]; exact hS.change (hput _) hcd, hst⟩
  · exact h.elim

/-- What schedulers need is done alike. -/
structure Needs.Matching [Journal σ] [Journal τ] (R : σ → τ → Prop) (needs : Needs σ α)
    (needs' : Needs τ α) : Prop where
  deploy : ∀ items, Agree R Eq (needs.deploy items) (needs'.deploy items)
  draws : needs.draws.Alike R needs'.draws
  note : ∀ n, Agree R Eq (note n : Action σ Unit) (note n : Action τ Unit)

section Alike

variable [Journal σ] [Journal τ] {needs : Needs σ α} {needs' : Needs τ α} (hS : Likeness S)

include hS

section Notes

variable (hnote : ∀ n, Agree R Eq (note n : Action σ Unit) (note n : Action τ Unit))

include hnote

omit hS in
theorem agree_note_akin (n : Note) : Agree (Akin (α := α) S R) Eq (note n) (note n) := by
  rw [note_eq_outside, note_eq_outside]
  exact agree_outside_akin (hnote n)

theorem agree_remark_akin (r : Remark) : Agree (Akin S R) Eq (remark r) (remark r) :=
  agree_part_akin hS fun _ _ _ => agree_note_akin hnote _

theorem agree_settle_akin : Agree (Akin S R) Eq settle settle := by
  refine agree_part_akin hS fun c m n => ?_
  have hpassed := Settling.agree_epochPassed hnote fun _ => c.label
  apply (agree_within_akin hS (fun _ _ _ => rfl) (fun _ _ _ _ => ⟨_, _, rfl⟩) hpassed).bind
  intro _ _ _
  exact agree_pure rfl

theorem agree_recordOutcome_akin (slot channel : Datum) (success : Bool) :
    Agree (Akin S R) Eq (recordOutcome slot channel success)
      (recordOutcome slot channel success) := by
  refine agree_part_akin hS fun c m n => ?_
  apply (agree_ofExcept _).bind
  rintro s _ rfl
  apply (agree_ofExcept _).bind
  rintro ch _ rfl
  apply (agree_change_akin hS fun _ _ _ => ⟨_, _, rfl⟩).bind
  intro _ _ _
  show Agree _ _ (if !c.active then _ else _) (if !c.active then _ else _)
  split
  · exact agree_remark_akin hS hnote _
  apply (agree_remark_akin hS hnote _).bind
  intro _ _ _
  apply (agree_ofExcept _).bind
  rintro outcomes _ rfl
  exact agree_change_akin hS fun _ _ _ => ⟨_, _, rfl⟩

end Notes

variable (h : needs.Matching R needs')

include h

theorem agree_deployConfiguration_akin (configuration : List Datum) :
    Agree (Akin S R) Eq (deployConfiguration needs configuration)
      (deployConfiguration needs' configuration) := by
  refine agree_part_akin hS fun c m n => ?_
  show Agree _ _ (if configuration.length ≠ c.table.slots then throw (.violated "") else _)
    (if configuration.length ≠ c.table.slots then throw (.violated "") else _)
  split
  · exact agree_throw _
  apply (agree_outside_akin (h.deploy _)).bind
  rintro answer _ rfl
  split
  · apply (agree_change_akin hS fun _ _ _ => ⟨_, _, rfl⟩).bind
    intro _ _ _
    exact (agree_remark_akin hS h.note _).bind fun _ _ _ => agree_pure rfl
  · exact (agree_remark_akin hS h.note _).bind fun _ _ _ => agree_pure rfl

variable [Arith α]

theorem agree_chooseAction_akin (slot : Datum) :
    Agree (Akin S R) Eq (chooseAction needs slot) (chooseAction needs' slot) := by
  have hdraws : needs.draws.outside.Alike (Akin S R) needs'.draws.outside :=
    ⟨agree_outside_akin h.draws.uniform, fun bound => agree_outside_akin (h.draws.below bound)⟩
  refine agree_part_akin hS fun c m n => ?_
  exact Selection.agree_chooseChannel (agree_note_akin h.note) hdraws c.table _ slot _

theorem agree_deployPolicy_akin :
    Agree (Akin S R) Eq (deployPolicy needs) (deployPolicy needs') := by
  have heach : ∀ todo : List Nat,
      Agree (Akin S R) Eq (chooseEach needs todo) (chooseEach needs' todo) := by
    intro todo
    induction todo with
    | nil => exact agree_pure rfl
    | cons slot todo ih =>
      apply (agree_chooseAction_akin hS h _).bind
      rintro c _ rfl
      apply ih.bind
      rintro cs _ rfl
      exact agree_pure rfl
  have hpolicy : Agree (Akin S R) Eq (computePolicy needs) (computePolicy needs') :=
    agree_part_akin hS fun c _ _ => heach (List.range c.table.slots)
  apply hpolicy.bind
  rintro policy _ rfl
  exact agree_deployConfiguration_akin hS h _

omit h in
theorem agree_learn_akin
    (hnote : ∀ n, Agree R Eq (note n : Action σ Unit) (note n : Action τ Unit)) :
    Agree (Akin (α := α) S R) Eq learn learn := by
  refine agree_part_akin hS fun c m n => ?_
  show Agree _ _ (if !c.deployed then _ else _) (if !c.deployed then _ else _)
  split
  · exact agree_remark_akin hS hnote _
  · exact agree_within_akin hS (fun _ _ _ => rfl) (fun _ _ _ _ => ⟨_, _, rfl⟩)
      (Lookahead.agree_apply hnote c.params c.outcomes c.configuration)

theorem agree_updateEpoch_akin :
    Agree (Akin S R) Eq (updateEpoch needs) (updateEpoch needs') := by
  apply (agree_change_akin hS fun _ _ _ => ⟨_, _, rfl⟩).bind
  intro _ _ _
  refine agree_part_akin hS fun c m n => ?_
  show Agree _ _ (if c.active then _ else _) (if c.active then _ else _)
  apply Agree.first (agree_learn_akin hS h.note)
  apply (agree_change_akin hS fun _ _ _ => ⟨_, _, rfl⟩).bind
  intro _ _ _
  apply (agree_deployPolicy_akin hS h).bind
  intro _ _ _
  show Agree _ _ (if !c.active then _ else _) (if !c.active then _ else _)
  split
  · exact agree_settle_akin hS h.note
  · exact agree_pure rfl

theorem agree_onSlotBoundary_akin (x : Datum) :
    Agree (Akin S R) Eq (onSlotBoundary needs x) (onSlotBoundary needs' x) := by
  apply (agree_ofExcept _).bind
  rintro asn _ rfl
  refine agree_part_akin hS fun c m n => ?_
  have hclose : Agree (Akin S R) Eq
      (if 0 < asn ∧ asn % c.table.slots = 0 then updateEpoch needs else pure ())
      (if 0 < asn ∧ asn % c.table.slots = 0 then updateEpoch needs' else pure ()) := by
    split
    · exact agree_updateEpoch_akin hS h
    · exact agree_pure rfl
  cases hasn : c.asn with
  | none =>
    simp only [show (c.recounted m n).asn = none from hasn]
    apply (agree_change_akin hS fun _ _ _ => ⟨_, _, rfl⟩).bind
    intro _ _ _
    exact (agree_deployConfiguration_akin hS h c.configuration).bind fun _ _ _ => hclose
  | some last =>
    simp only [show (c.recounted m n).asn = some last from hasn]
    split
    · exact (agree_throw (P := fun _ _ => False) _).bind fun _ _ hno => hno.elim
    apply (agree_change_akin hS fun _ _ _ => ⟨_, _, rfl⟩).bind
    intro _ _ _
    exact hclose

end Alike

/-! ### The same surroundings -/

variable [Journal σ]

theorem Needs.matching_self (needs : Needs σ α) : needs.Matching Eq needs where
  deploy _ := agree_self _
  draws := ⟨agree_self _, fun _ => agree_self _⟩
  note _ := agree_self _

/-- The same but for the counts, in the same surroundings. -/
def Recounted (p q : ChannelHopping α × σ) : Prop :=
  (∃ m n, q.1 = p.1.recounted m n) ∧ p.2 = q.2

/-- A call of either scheduler comes to the same. -/
theorem agree_hear_recounted [Arith α] (needs : Needs σ α) (call : Signal) :
    Agree Recounted Eq (hear needs call) (hear needs call) := by
  cases call with
  | boundary x => exact agree_onSlotBoundary_akin likeness_recounted needs.matching_self x
  | outcome slot channel success =>
    exact agree_recordOutcome_akin likeness_recounted (fun _ => agree_self _) slot channel success

end ChannelHopping

/-! ### Slot schedulers -/

namespace SlotSelection

variable [Journal σ] [Journal τ] {R : σ → τ → Prop} {needs : Needs μ σ α} {needs' : Needs μ τ α}

/-- What schedulers need is done alike, and their links are moved alike. -/
structure Needs.Matching (R : σ → τ → Prop) (deploy : Deploys μ σ) (deploy' : Deploys μ τ)
    (needs : Needs μ σ α) (needs' : Needs μ τ α) : Prop where
  deploy : ∀ links, Agree (Beside (LinkDeployer μ) R) Eq (deploy links) (deploy' links)
  request : ∀ i destination size, Agree R Eq (needs.macs.request i destination size)
    (needs'.macs.request i destination size)
  draws : needs.draws.Alike R needs'.draws
  note : ∀ n, Agree R Eq (note n : Action σ Unit) (note n : Action τ Unit)

section Notes

variable (hnote : ∀ n, Agree R Eq (note n : Action σ Unit) (note n : Action τ Unit))

include hnote

theorem agree_remark (r : Remark) :
    Agree (Beside (SlotSelection μ α) R) Eq (remark r) (remark r) := by
  unfold remark
  apply agree_part.bind
  rintro a _ rfl
  exact (hnote _).note_beside

theorem agree_settle : Agree (Beside (SlotSelection μ α) R) Eq settle settle := by
  unfold settle
  apply agree_part.bind
  rintro a _ rfl
  exact (Settling.agree_epochPassed hnote _).within.bind fun _ _ _ => agree_pure rfl

theorem agree_moveBy {deploy : Deploys μ σ} {deploy' : Deploys μ τ}
    (hdeploy : ∀ links, Agree (Beside (LinkDeployer μ) R) Eq (deploy links) (deploy' links))
    (slot : Nat) :
    Agree (Beside (SlotSelection μ α) R) Eq (moveBy deploy slot) (moveBy deploy' slot) := by
  unfold moveBy
  apply agree_part.bind
  rintro a _ rfl
  apply (agree_ofExcept _).bind
  rintro links _ rfl
  apply (hdeploy links).within.bind
  rintro accepted _ rfl
  split
  · exact agree_change _
  · exact agree_remark hnote _

theorem agree_requestTransmission
    (hrequest : ∀ i destination size, Agree R Eq (needs.macs.request i destination size)
      (needs'.macs.request i destination size)) :
    Agree (Beside (SlotSelection μ α) R) Eq (requestTransmission needs)
      (requestTransmission needs') := by
  unfold requestTransmission
  apply (agree_change _).bind
  intro _ _ _
  apply agree_part.bind
  rintro a _ rfl
  apply (agree_remark hnote _).bind
  intro _ _ _
  exact (hrequest a.mac a.destination a.params.packetSize).outside

end Notes

variable [Arith α]

omit [Journal σ] [Journal τ] in
/-- An overheard transmission is not passed on to anything around. -/
theorem agree_onOverheardActivity (slot : Datum) :
    Agree (Beside (SlotSelection μ α) R) Eq (onOverheardActivity slot)
      (onOverheardActivity slot) := by
  unfold onOverheardActivity
  apply agree_part.bind
  rintro a _ rfl
  apply (agree_ofExcept _).bind
  rintro peaking _ rfl
  exact agree_change _

theorem agree_onTransmissionOutcome
    (hnote : ∀ n, Agree R Eq (note n : Action σ Unit) (note n : Action τ Unit)) (slot : Datum)
    (success : Bool) :
    Agree (Beside (SlotSelection μ α) R) Eq (onTransmissionOutcome slot success)
      (onTransmissionOutcome slot success) := by
  unfold onTransmissionOutcome
  apply agree_part.bind
  rintro a _ rfl
  apply (agree_ofExcept _).bind
  rintro s _ rfl
  refine Agree.first (agree_change _) ?_
  split
  · exact agree_remark hnote _
  · exact (SlotReward.agree_apply hnote _ _ _).within.bind fun _ _ _ => agree_pure rfl

variable {deploy : Deploys μ σ} {deploy' : Deploys μ τ}
  (h : Needs.Matching R deploy deploy' needs needs')

include h

theorem agree_chooseAction :
    Agree (Beside (SlotSelection μ α) R) Eq (chooseAction needs) (chooseAction needs') := by
  have hdraws : needs.draws.outside.Alike (Beside (SlotSelection μ α) R) needs'.draws.outside :=
    ⟨h.draws.uniform.outside, fun bound => (h.draws.below bound).outside⟩
  unfold chooseAction
  apply agree_part.bind
  rintro a _ rfl
  exact Selection.agree_chooseSlot (fun n => (h.note n).note_beside) hdraws _ _ _ _

theorem agree_startSlotframeBy (asn : Nat) :
    Agree (Beside (SlotSelection μ α) R) Eq (startSlotframeBy deploy needs asn)
      (startSlotframeBy deploy' needs' asn) := by
  unfold startSlotframeBy
  refine Agree.first (agree_settle h.note) ?_
  apply (agree_change _).bind
  intro _ _ _
  apply (agree_chooseAction h).bind
  rintro slot _ rfl
  apply (agree_moveBy h.note h.deploy slot).bind
  intro _ _ _
  apply h.draws.uniform.outside.bind
  rintro u _ rfl
  apply agree_part.bind
  rintro a _ rfl
  split
  · exact agree_requestTransmission h.note h.request
  · exact agree_pure rfl

theorem agree_onSlotBoundaryBy (x : Datum) :
    Agree (Beside (SlotSelection μ α) R) Eq (onSlotBoundaryBy deploy needs x)
      (onSlotBoundaryBy deploy' needs' x) := by
  unfold onSlotBoundaryBy
  apply (agree_ofExcept _).bind
  rintro asn _ rfl
  apply agree_part.bind
  rintro a _ rfl
  have hstart : Agree (Beside (SlotSelection μ α) R) Eq
      (if asn % a.table.slots = 0 then startSlotframeBy deploy needs asn else pure ())
      (if asn % a.table.slots = 0 then startSlotframeBy deploy' needs' asn else pure ()) := by
    split
    · exact agree_startSlotframeBy h asn
    · exact agree_pure rfl
  cases hasn : a.asn with
  | none =>
    apply (agree_change _).bind
    intro _ _ _
    apply (agree_ofExcept _).bind
    rintro epsilon _ rfl
    exact (agree_change _).bind fun _ _ _ => hstart
  | some last =>
    dsimp only
    split
    · exact (agree_throw (P := fun _ _ => False) _).bind fun _ _ hno => hno.elim
    apply (agree_change _).bind
    intro _ _ _
    apply (agree_ofExcept _).bind
    rintro epsilon _ rfl
    exact (agree_change _).bind fun _ _ _ => hstart

end SlotSelection
end TschLearning
