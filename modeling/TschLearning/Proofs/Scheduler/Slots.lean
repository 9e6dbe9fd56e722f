import TschLearning.Proofs.Action.Meets
import TschLearning.Proofs.Scheduler.Steps
import TschLearning.Scheduler.SlotSelection

/-! What a slot scheduler does at a slot boundary, with an outcome and with overheard activity, as
far as an assertion can tell that does not look at what the scheduler has learned. -/

namespace TschLearning.SlotSelection

open TschLearning.Action

variable {σ μ α : Type}

def asking (a : SlotSelection μ α) : SlotSelection μ α :=
  { a with attempts := a.attempts + 1, requested := a.asn }

def counting (a : SlotSelection μ α) (success : Bool) : SlotSelection μ α :=
  if success then a.confirmed else a

/-- A success adds the slots since the request that is known, if there is one. -/
theorem confirmed_eq {a : SlotSelection μ α} {asn : Nat} (hasn : a.asn = some asn) :
    a.confirmed = { a with
      successes := a.successes + 1
      delay := a.delay + (a.requested.map (asn - ·)).getD 0
      requested := none } := by
  unfold confirmed
  cases hr : a.requested <;> simp [hasn]

theorem mac_counting (a : SlotSelection μ α) (success : Bool) :
    (a.counting success).mac = a.mac := by
  unfold counting confirmed
  dsimp only
  split
  · split <;> rfl
  · rfl

/-- Schedulers that differ in what they have learned only, from tables of the same size. -/
def Kin (a b : SlotSelection μ α) : Prop :=
  ∃ table peaking epsilon activation, b = { a with table, peaking, epsilon, activation } ∧
    table.slots = a.table.slots ∧ table.channels = a.table.channels ∧
    peaking.scores.length = a.peaking.scores.length

/-- The slot is one that the scheduler can choose. -/
def Eligible [Arith α] (a : SlotSelection μ α) (slot : Nat) : Prop :=
  slot = a.peaking.quietest ∨ slot = a.table.bestSlot

/-- A slot that the scheduler can choose is one of the slotframe. -/
theorem lt_of_eligible [Arith α] {a : SlotSelection μ α} {slots : Nat}
    (hslots : a.table.slots = slots) (hscores : a.peaking.scores.length = slots) (hpos : 0 < slots)
    {slot : Nat} (h : a.Eligible slot) : slot < slots := by
  rcases h with rfl | rfl
  · have hlt := bestPosition_lt Arith.undercuts (hscores ▸ hpos)
    rwa [hscores] at hlt
  · have hlen : ((List.range a.table.slots).map (a.table.cell · 0)).length = slots := by
      rw [List.length_map, List.length_range, hslots]
    have hlt := bestPosition_lt Arith.exceeds (hlen ▸ hpos)
    rwa [hlen] at hlt

variable [Journal σ]

/-! ### Links moved in a given way -/

/-- Ways to deploy the link of a device. -/
abbrev Deploys (μ σ : Type) := Links → Action (LinkDeployer μ × σ) Bool

def moveBy (deploy : Deploys μ σ) (slot : Nat) : Action (SlotSelection μ α × σ) Unit := do
  let a ← Action.part
  let links ← Action.ofExcept (a.linkIn slot)
  let accepted ← Action.within SlotSelection.deployer (fun deployer a => { a with deployer })
    (deploy links)
  if accepted then Action.change fun a => { a with action := slot }
  else remark (.slotKept a.action)

section Given

variable [Arith α]

def startSlotframeBy (deploy : Deploys μ σ) (needs : Needs μ σ α) (asn : Nat) :
    Action (SlotSelection μ α × σ) Unit := do
  if 0 < asn then settle
  Action.change fun a => { a with peaking := a.peaking.decay a.params.sigma }
  let slot ← chooseAction needs
  moveBy deploy slot
  let u ← needs.draws.uniform.outside
  if Arith.lt u (← Action.part).params.packetProbability then requestTransmission needs

def onSlotBoundaryBy (deploy : Deploys μ σ) (needs : Needs μ σ α) (absoluteSlot : Datum) :
    Action (SlotSelection μ α × σ) Unit := do
  let asn ← Action.ofExcept (checkSlotNumber absoluteSlot)
  let a ← Action.part
  if let some last := a.asn then
    if asn ≤ last then throw (.slotNumberNotLater a.label asn last)
  Action.change fun a => { a with asn := some asn }
  let epsilon ← Action.ofExcept (a.annealed asn)
  Action.change fun a => { a with epsilon }
  if asn % a.table.slots = 0 then startSlotframeBy deploy needs asn

theorem onSlotBoundaryBy_deploy (needs : Needs μ σ α) (x : Datum) :
    onSlotBoundaryBy (LinkDeployer.deploy needs.macs) needs x = onSlotBoundary needs x := rfl

/-- A slot number that exceeds the last one is taken over before anything else happens. -/
theorem onSlotBoundaryBy_of_later (deploy : Deploys μ σ) (needs : Needs μ σ α)
    {a : SlotSelection μ α} {asn : Nat} (hlater : ∀ last, a.asn = some last → last < asn) (s : σ) :
    onSlotBoundaryBy deploy needs (.int asn) (a, s) =
      (do
        let epsilon ← Action.ofExcept (a.annealed asn)
        Action.change fun a => { a with epsilon }
        if asn % a.table.slots = 0 then startSlotframeBy deploy needs asn :
          Action (SlotSelection μ α × σ) Unit) ({ a with asn := some asn }, s) := by
  have hasn : checkSlotNumber (.int asn) = .ok asn := by simp [checkSlotNumber]
  unfold onSlotBoundaryBy
  rw [hasn]
  cases hlast : a.asn with
  | none =>
    simp only [bind, EStateM.bind, pure, EStateM.pure, Action.ofExcept, part, hlast]
    rfl
  | some last =>
    have hnot : ¬asn ≤ last := Nat.not_le.2 (hlater last hlast)
    simp only [bind, EStateM.bind, pure, EStateM.pure, Action.ofExcept, part, hlast, if_neg hnot]
    rfl

end Given

/-! ### Blind assertions -/

/-- An assertion about a scheduler and its surroundings that does not look at what was learned,
at notes or at draws. -/
structure Blind (lenient : Prop) (needs : Needs μ σ α) (P : SlotSelection μ α → σ → Prop) :
    Prop where
  kin : ∀ {a b s}, P a s → a.Kin b → P b s
  note : ∀ {a s} (n : Note), P a s → Journal.obstacle? n s = none ∧ P a (Journal.enter n s)
  uniform : ∀ {a s}, P a s → Meets lenient needs.draws.uniform s fun _ => P a

variable {lenient : Prop} {needs : Needs μ σ α} {P P' Q : SlotSelection μ α → σ → Prop}
  {a : SlotSelection μ α} {s : σ}

namespace Blind

theorem meets_note (h : Blind lenient needs P) (hs : P a s) {τ : Type} (t : τ) (n : Note) :
    Meets lenient (Action.note n) (t, s) fun _ p => p.1 = t ∧ P a p.2 := by
  obtain ⟨ho, he⟩ := h.note n hs
  exact (Action.meets_note (s := (t, s)) ho).2 ⟨rfl, he⟩

theorem meets_remark (h : Blind lenient needs P) (hs : P a s) (r : Remark) :
    Meets lenient (remark r) (a, s) fun _ p => p.1 = a ∧ P a p.2 := by
  unfold remark
  rw [meets_bind, meets_part]
  exact h.meets_note hs a _

theorem activate (h : Blind lenient needs P) (hs : P a s) (activation : Activation) :
    P { a with activation } s :=
  h.kin hs ⟨a.table, a.peaking, a.epsilon, activation, rfl, rfl, rfl, rfl⟩

theorem retune (h : Blind lenient needs P) (hs : P a s) (epsilon : α) : P { a with epsilon } s :=
  h.kin hs ⟨a.table, a.peaking, epsilon, a.activation, rfl, rfl, rfl, rfl⟩

theorem rescore (h : Blind lenient needs P) (hs : P a s) {peaking : PeakingTable α}
    (hlen : peaking.scores.length = a.peaking.scores.length) : P { a with peaking } s :=
  h.kin hs ⟨a.table, peaking, a.epsilon, a.activation, rfl, rfl, rfl, hlen⟩

theorem relearn (h : Blind lenient needs P) (hs : P a s) {table : ValueTable α}
    (hslots : table.slots = a.table.slots) (hchannels : table.channels = a.table.channels) :
    P { a with table } s :=
  h.kin hs ⟨table, a.peaking, a.epsilon, a.activation, rfl, hslots, hchannels, rfl⟩

/-! ### Slotframe boundaries -/

theorem meets_settle (h : Blind lenient needs P) (hs : P a s) :
    Meets lenient settle (a, s) fun _ p => P p.1 p.2 := by
  unfold settle Settling.epochPassed
  simp only [meets_bind, meets_part, meets_within]
  cases a.activation.active with
  | true =>
    exact h.activate hs a.activation
  | false =>
    simp only [Bool.false_eq_true, if_false, meets_bind, meets_change, meets_part]
    refine (h.meets_note hs _ _).mono ?_
    rintro _ ⟨_, t⟩ ⟨rfl, ht⟩
    cases a.activation.counted.isDue with
    | false => exact h.activate ht _
    | true =>
      simp only [Bool.not_true, Bool.false_eq_true, if_false, meets_bind, meets_change, meets_part]
      refine (h.meets_note ht _ _).mono ?_
      rintro _ ⟨_, u⟩ ⟨rfl, hu⟩
      exact h.activate hu _

variable [Arith α]

theorem meets_explores (h : Blind lenient needs P) (hs : P a s) (epsilon : α)
    (mayExplore : Bool) :
    Meets lenient (Selection.explores needs.draws.outside epsilon mayExplore) (a, s)
      fun _ p => p.1 = a ∧ P a p.2 := by
  unfold Selection.explores
  cases mayExplore with
  | false => exact ⟨rfl, hs⟩
  | true =>
    simp only [if_true, meets_bind]
    show Meets lenient needs.draws.uniform.outside (a, s) _
    rw [meets_outside]
    exact (h.uniform hs).mono fun _ t ht => ⟨rfl, ht⟩

theorem meets_chooseAction (h : Blind lenient needs P) (hs : P a s) :
    Meets lenient (chooseAction needs) (a, s) fun slot p =>
      (a.Eligible slot ∧ p.1 = a) ∧ P a p.2 := by
  unfold chooseAction Selection.chooseSlot
  simp only [meets_bind, meets_part]
  refine (h.meets_explores hs _ _).mono ?_
  rintro explores ⟨_, t⟩ ⟨rfl, ht⟩
  cases explores with
  | true =>
    simp only [if_true, meets_bind]
    refine (h.meets_note ht _ _).mono ?_
    rintro _ ⟨_, u⟩ ⟨rfl, hu⟩
    exact ⟨⟨.inl rfl, rfl⟩, hu⟩
  | false =>
    simp only [Bool.false_eq_true, if_false, meets_bind]
    refine (h.meets_note ht _ _).mono ?_
    rintro _ ⟨_, u⟩ ⟨rfl, hu⟩
    exact ⟨⟨.inr rfl, rfl⟩, hu⟩

/-- What an assertion becomes once a frame was requested. -/
def Requests (lenient : Prop) (needs : Needs μ σ α) (P Q : SlotSelection μ α → σ → Prop) : Prop :=
  ∀ {a s}, P a s →
    Meets lenient (needs.macs.request a.mac a.destination a.params.packetSize) s fun _ =>
      Q a.asking

/-- What an assertion becomes once the link was moved, in a given way, to a slot that was chosen. -/
def MovesBy (lenient : Prop) (deploy : Deploys μ σ) (P P' : SlotSelection μ α → σ → Prop) : Prop :=
  ∀ {a s slot}, P a s → a.Eligible slot →
    Meets lenient (moveBy deploy slot) (a, s) fun _ p => P' p.1 p.2

/-- What an assertion becomes once the link was moved to a slot that was chosen. -/
def Moves (lenient : Prop) (needs : Needs μ σ α) (P P' : SlotSelection μ α → σ → Prop) : Prop :=
  ∀ {a s slot}, P a s → a.Eligible slot →
    Meets lenient (move needs slot) (a, s) fun _ p => P' p.1 p.2

omit [Arith α] in
theorem meets_requestTransmission (h : Blind lenient needs P)
    (hrequest : Requests lenient needs P Q) (hs : P a s) :
    Meets lenient (requestTransmission needs) (a, s) fun _ p => Q p.1 p.2 := by
  unfold requestTransmission remark
  simp only [meets_bind, meets_change, meets_part]
  refine (h.meets_note hs a.asking _).mono ?_
  rintro _ ⟨_, t⟩ ⟨rfl, ht⟩
  rw [meets_outside]
  exact hrequest ht

theorem meets_startSlotframeBy {deploy : Deploys μ σ} (h : Blind lenient needs P)
    (h' : Blind lenient needs P') (hmove : MovesBy lenient deploy P P')
    (hrequest : Requests lenient needs P' Q) (asn : Nat) (hs : P a s) :
    Meets lenient (startSlotframeBy deploy needs asn) (a, s) fun _ p => P' p.1 p.2 ∨ Q p.1 p.2 := by
  have hrest : ∀ {b t}, P b t → Meets lenient (do
      Action.change fun a => { a with peaking := a.peaking.decay a.params.sigma }
      let slot ← chooseAction needs
      moveBy deploy slot
      let u ← needs.draws.uniform.outside
      if Arith.lt u (← Action.part).params.packetProbability then requestTransmission needs) (b, t)
      fun _ p => P' p.1 p.2 ∨ Q p.1 p.2 := by
    intro b t ht
    simp only [meets_bind, meets_change]
    refine (h.meets_chooseAction (h.rescore ht (List.length_map ..))).mono ?_
    rintro slot ⟨_, u⟩ ⟨⟨hslot, rfl⟩, hu⟩
    refine (hmove hu hslot).mono ?_
    rintro _ ⟨c, v⟩ hv
    simp only [meets_outside]
    refine (h'.uniform hv).mono fun x w hw => ?_
    rw [meets_part]
    split
    · exact (h'.meets_requestTransmission hrequest hw).mono fun _ p hp => .inr hp
    · exact .inl hw
  unfold startSlotframeBy
  split
  · rw [meets_bind]
    exact (h.meets_settle hs).mono fun _ p hp => hrest hp
  · exact hrest hs

/-! ### Events -/

/-- The start of a slot. The link is moved and a frame requested at the start of a slotframe
only. -/
theorem meets_onSlotBoundaryBy {deploy : Deploys μ σ} (h : Blind lenient needs P)
    (h' : Blind lenient needs P') {asn : Nat}
    (hmove : asn % a.table.slots = 0 → MovesBy lenient deploy P P')
    (hrequest : asn % a.table.slots = 0 → Requests lenient needs P' Q)
    (hlater : (∀ last, a.asn = some last → last < asn) ∨ lenient)
    (hrate : (∃ rate, a.annealed asn = .ok rate) ∨ lenient) (hs : P { a with asn := some asn } s) :
    Meets lenient (onSlotBoundaryBy deploy needs (.int asn)) (a, s) fun _ p =>
      if asn % a.table.slots = 0 then P' p.1 p.2 ∨ Q p.1 p.2 else P p.1 p.2 := by
  have hasn : checkSlotNumber (.int asn) = .ok asn := by simp [checkSlotNumber]
  have hrest : Meets lenient (do
      Action.change fun a => { a with asn := some asn }
      let epsilon ← Action.ofExcept (a.annealed asn)
      Action.change fun a => { a with epsilon }
      if asn % a.table.slots = 0 then startSlotframeBy deploy needs asn) (a, s) fun _ p =>
        if asn % a.table.slots = 0 then P' p.1 p.2 ∨ Q p.1 p.2 else P p.1 p.2 := by
    simp only [meets_bind, meets_change]
    refine meets_ofExcept_of hrate fun epsilon _ => ?_
    have ha := h.retune hs epsilon
    rw [meets_change]
    by_cases hstart : asn % a.table.slots = 0
    · simp only [if_pos hstart]
      exact h.meets_startSlotframeBy h' (hmove hstart) (hrequest hstart) asn ha
    · simp only [if_neg hstart]
      exact ha
  unfold onSlotBoundaryBy
  simp only [meets_bind, meets_ofExcept_of_eq_ok hasn, meets_part]
  split
  · rename_i last hlast
    split
    · rename_i hle
      exact hlater.elim (fun hlater => absurd (hlater last hlast) (Nat.not_lt.2 hle)) id
    · simpa only [meets_bind] using hrest
  · simpa only [meets_bind] using hrest

theorem meets_onSlotBoundary (h : Blind lenient needs P) (h' : Blind lenient needs P') {asn : Nat}
    (hmove : asn % a.table.slots = 0 → Moves lenient needs P P')
    (hrequest : asn % a.table.slots = 0 → Requests lenient needs P' Q)
    (hlater : (∀ last, a.asn = some last → last < asn) ∨ lenient)
    (hrate : (∃ rate, a.annealed asn = .ok rate) ∨ lenient) (hs : P { a with asn := some asn } s) :
    Meets lenient (onSlotBoundary needs (.int asn)) (a, s) fun _ p =>
      if asn % a.table.slots = 0 then P' p.1 p.2 ∨ Q p.1 p.2 else P p.1 p.2 := by
  rw [← onSlotBoundaryBy_deploy]
  exact h.meets_onSlotBoundaryBy h' hmove hrequest hlater hrate hs

theorem meets_apply (h : Blind lenient needs P) (hs : P a s) {slot : Nat}
    (hslot : slot < a.table.slots ∧ 0 < a.table.channels ∨ lenient) (params : Parameters α)
    (success : Bool) :
    Meets lenient (Action.within SlotSelection.table (fun table a => { a with table })
      (SlotReward.apply params (.int slot) success)) (a, s) fun _ p => P p.1 p.2 := by
  have hstep : (∃ r, SlotReward.step params a.table (.int slot) success = .ok r) ∨ lenient := by
    refine hslot.imp_left fun hin => ?_
    have hs := checkIndex_int_of_lt (possessive a.table.label) "slot" (Int.natCast_nonneg slot)
      (Int.ofNat_lt.2 hin.1)
    have hc := checkIndex_int_of_lt (possessive a.table.label) "channel" (Int.le_refl 0)
      (Int.ofNat_lt.2 hin.2)
    simp only [SlotReward.step, ValueTable.value, ValueTable.checkSlot, ValueTable.checkChannel, hs,
      hc]
    exact ⟨_, rfl⟩
  unfold SlotReward.apply
  simp only [meets_within, meets_bind, meets_part]
  refine meets_ofExcept_of hstep fun r _ => ?_
  rw [meets_change]
  have ha : P { a with table := r.enter a.table } s :=
    h.relearn hs (Grid.slots_set ..) (Grid.channels_set ..)
  refine (h.meets_note ha _ _).mono ?_
  rintro _ ⟨_, t⟩ ⟨rfl, ht⟩
  exact ht

omit [Arith α] [Journal σ] in
theorem table_counting (a : SlotSelection μ α) (success : Bool) :
    (a.counting success).table = a.table := by
  unfold counting confirmed
  dsimp only
  split
  · split <;> rfl
  · rfl

theorem meets_onTransmissionOutcome (h : Blind lenient needs P) {slot : Datum} {success : Bool}
    (hslot : (∃ n < a.table.slots, slot = .int n) ∧ 0 < a.table.channels ∨ lenient)
    (hs : P (a.counting success) s) :
    Meets lenient (onTransmissionOutcome slot success) (a, s) fun _ p => P p.1 p.2 := by
  have hindex : (∃ n, checkIndex (possessive ownerLabel) "slot" a.table.slots slot = .ok n) ∨
      lenient := by
    refine hslot.imp_left ?_
    rintro ⟨⟨n, hn, rfl⟩, -⟩
    exact ⟨n, checkIndex_int_of_lt _ _ (Int.natCast_nonneg n) (Int.ofNat_lt.2 hn)⟩
  unfold onTransmissionOutcome
  simp only [meets_bind, meets_part]
  refine meets_ofExcept_of hindex fun n hn => ?_
  have hin : n < (a.counting success).table.slots ∧ 0 < (a.counting success).table.channels ∨
      lenient := by
    rw [table_counting]
    exact hslot.imp_left fun hin => ⟨Int.ofNat_lt.1 (checkIndex_eq_ok hn).2, hin.2⟩
  have hrest : Meets lenient (if !a.active then remark (.slotOutcomeDiscarded n) else do
      let _ ← Action.within SlotSelection.table (fun table a => { a with table })
        (SlotReward.apply a.params (.int n) success)) (a.counting success, s)
      fun _ p => P p.1 p.2 := by
    split
    · refine (h.meets_remark hs _).mono ?_
      rintro _ ⟨_, t⟩ ⟨rfl, ht⟩
      exact ht
    · rw [meets_bind]
      exact (h.meets_apply hs hin a.params success).mono fun _ _ hp => hp
  cases success with
  | true =>
    simp only [if_true, meets_bind, meets_change]
    exact hrest
  | false => exact hrest

theorem meets_onOverheardActivity (h : Blind lenient needs P) {slot : Datum}
    (hslot : (∃ n < a.peaking.scores.length, slot = .int n) ∨ lenient) (hs : P a s) :
    Meets lenient (onOverheardActivity slot) (a, s) fun _ p => P p.1 p.2 := by
  unfold onOverheardActivity
  simp only [meets_bind, meets_part]
  refine meets_ofExcept_of ?_ fun peaking hpeaking => ?_
  · refine hslot.imp_left ?_
    rintro ⟨n, hn, rfl⟩
    have hcheck := checkIndex_int_of_lt (possessive a.peaking.label) "slot" (Int.natCast_nonneg n)
      (Int.ofNat_lt.2 hn)
    simp only [PeakingTable.bump, PeakingTable.checkSlot, PeakingTable.slots, hcheck]
    exact ⟨_, rfl⟩
  · rw [meets_change]
    refine h.rescore hs ?_
    simp only [PeakingTable.bump, bind, Except.bind] at hpeaking
    split at hpeaking
    · cases hpeaking
    · cases hpeaking
      exact List.length_modify ..

end Blind
end TschLearning.SlotSelection
