import TschLearning.Proofs.Action.Twin
import TschLearning.Proofs.Learning.Snapshot
import TschLearning.Scheduler.ChannelHopping

/-! What a channel scheduler does at a slot boundary and with an outcome, for any deployer that
answers and any draws within their bounds. All is said of two schedulers at once, which are in
the same state and get the same answers and draws from different surroundings. -/

namespace TschLearning

/-- A configuration that was handed to a deployer, and the answer. -/
structure Deployment where
  configuration : List Datum
  answer : Bool

theorem bestPositionFrom_lt {β : Type} (beats : β → β → Bool) (best : β) {position next : Nat}
    (h : position < next) (xs : List β) :
    bestPositionFrom beats best position next xs < next + xs.length := by
  induction xs generalizing best position next with
  | nil => exact h
  | cons x xs ih =>
    rw [List.length_cons]
    unfold bestPositionFrom
    split
    · have hlt := ih x (Nat.lt_add_one next)
      omega
    · have hlt := ih best (Nat.lt_add_right 1 h)
      omega

theorem bestPosition_lt {β : Type} (beats : β → β → Bool) {xs : List β} (h : 0 < xs.length) :
    bestPosition beats xs < xs.length := by
  cases xs with
  | nil => exact absurd h (Nat.lt_irrefl 0)
  | cons x xs =>
    have hlt := bestPositionFrom_lt beats x Nat.zero_lt_one xs
    rwa [Nat.add_comm] at hlt

theorem ValueTable.bestIn_lt {α : Type} [Arith α] (table : ValueTable α) (slot : Nat)
    (h : 0 < table.channels) : table.bestIn slot < table.channels := by
  have hlen : (table.row slot).length = table.channels := by
    rw [Grid.row, List.length_map, List.length_range]
  have hlt := bestPosition_lt Arith.exceeds (hlen ▸ h)
  rwa [hlen] at hlt

namespace ChannelHopping

open TschLearning.Action

variable {σ τ α : Type} [Arith α]

/-! ### The scheduler after its steps -/

section States

variable (c : ChannelHopping α)

def answered (d : Deployment) : ChannelHopping α :=
  if d.answer then { c with configuration := d.configuration, deployed := true } else c

/-- Once it has learned from the recorded outcomes, if it learns. -/
def taught : ChannelHopping α :=
  if c.active && c.deployed then
    { c with table := Lookahead.snapshot c.params c.outcomes.cell c.configuration c.table }
  else c

def ticked : ChannelHopping α := { c with epochs := c.epochs + 1 }

def forgetful : ChannelHopping α := { c with outcomes := c.outcomes.clear }

/-- Once a slotframe was closed, with the deployment of the policy chosen then. -/
def closed (d : Deployment) : ChannelHopping α :=
  { c.ticked.taught.forgetful.answered d with activation := c.activation.advance }

/-- Once a slot has started: with the deployment of the first configuration, if there was one,
and that of a policy, if a slotframe was closed. -/
def reached (asn : Nat) (first policy : List Deployment) : ChannelHopping α :=
  policy.foldl closed (first.foldl answered { c with asn := some asn })

def informed (slot channel : Nat) (success : Bool) : ChannelHopping α :=
  if c.active then
    { c.counting success with
      outcomes := if success then c.outcomes.set slot channel true else c.outcomes }
  else c.counting success

/-- Tables of one size, and a configuration of that size. -/
structure Valid (slots channels : Nat) (c : ChannelHopping α) : Prop where
  channels_pos : 0 < channels
  slots_table : c.table.slots = slots
  channels_table : c.table.channels = channels
  slots_outcomes : c.outcomes.slots = slots
  channels_outcomes : c.outcomes.channels = channels
  blank_outcomes : c.outcomes.blank = false
  configured : IsConfiguration slots channels c.configuration

end States

/-! ### Surroundings -/

variable [Journal σ] [Journal τ]

/-- Two schedulers get the same answers and the same draws, within their bounds, and nothing
stands in the way of their notes. `Held` relates the surroundings after the given
deployments. -/
structure Coupled (needs : Needs σ α) (needs' : Needs τ α) (slots channels : Nat)
    (Held : List Deployment → σ → τ → Prop) : Prop where
  deploy : ∀ {ds s t configuration}, Held ds s t → IsConfiguration slots channels configuration →
    Twin (needs.deploy configuration) (needs'.deploy configuration) s t
      fun a b s' t' => a = b ∧ Held (ds ++ [⟨configuration, a⟩]) s' t'
  uniform : ∀ {ds s t}, Held ds s t →
    Twin needs.draws.uniform needs'.draws.uniform s t fun u v s' t' => u = v ∧ Held ds s' t'
  below : ∀ {ds s t}, Held ds s t →
    Twin (needs.draws.below channels) (needs'.draws.below channels) s t
      fun i j s' t' => i = j ∧ (0 ≤ i ∧ i < channels) ∧ Held ds s' t'
  note : ∀ {ds s t} (n : Note), Held ds s t → Journal.obstacle? n s = none ∧
    Journal.obstacle? n t = none ∧ Held ds (Journal.enter n s) (Journal.enter n t)

variable {needs : Needs σ α} {needs' : Needs τ α} {slots channels : Nat}
  {Held : List Deployment → σ → τ → Prop} {ds : List Deployment} {s : σ} {t : τ}
  {c : ChannelHopping α}

omit [Arith α] in
theorem Coupled.twin_enter (h : Coupled needs needs' slots channels Held) (hs : Held ds s t)
    {κ : Type} (k : κ) (n : Note) :
    Twin (Action.note n) (Action.note n) (k, s) (k, t) fun _ _ => Sharing k (Held ds) := by
  obtain ⟨ho, ho', he⟩ := h.note n hs
  exact twin_note.2 ⟨ho, ho', rfl, rfl, he⟩

omit [Arith α] in
theorem Coupled.twin_remark (h : Coupled needs needs' slots channels Held) (hs : Held ds s t)
    (c : ChannelHopping α) (r : Remark) :
    Twin (remark r) (remark r) (c, s) (c, t) fun _ _ => Sharing c (Held ds) := by
  unfold remark
  rw [twin_part_bind]
  exact h.twin_enter hs c _

/-! ### Choosing a policy -/

theorem Coupled.twin_explores (h : Coupled needs needs' slots channels Held) (hs : Held ds s t)
    (c : ChannelHopping α) (epsilon : α) (mayExplore : Bool) :
    Twin (Selection.explores needs.draws.outside epsilon mayExplore)
      (Selection.explores needs'.draws.outside epsilon mayExplore) (c, s) (c, t)
      fun a b p q => a = b ∧ Sharing c (Held ds) p q := by
  unfold Selection.explores
  cases mayExplore with
  | false => exact ⟨rfl, rfl, rfl, hs⟩
  | true =>
    refine Twin.bind ((h.uniform hs).sharing c) ?_
    rintro u _ ⟨_, s'⟩ ⟨_, t'⟩ ⟨rfl, rfl, rfl, hs'⟩
    exact ⟨rfl, rfl, rfl, hs'⟩

/-- The channel that is chosen for a slot is one of the table. -/
theorem Coupled.twin_chooseAction (h : Coupled needs needs' slots channels Held)
    (hs : Held ds s t) (hc : c.Valid slots channels) {slot : Nat} (hslot : slot < slots) :
    Twin (chooseAction needs (.int slot)) (chooseAction needs' (.int slot)) (c, s) (c, t)
      fun a b p q => (a = b ∧ 0 ≤ a ∧ a < channels) ∧ Sharing c (Held ds) p q := by
  have hindex : checkIndex (possessive ("<" ++ Selection.channelLabel ++ ">")) "slot"
      c.table.slots (.int slot) = .ok slot := by
    rw [checkIndex_int_of_lt _ _ (Int.natCast_nonneg slot)
      (Int.ofNat_lt.2 (by rwa [hc.slots_table])), Int.toNat_natCast]
  unfold chooseAction Selection.chooseChannel
  simp only [twin_part_bind, twin_ofExcept_bind, hindex, Except.ok.injEq, exists_and_left,
    exists_eq_left']
  refine Twin.bind (h.twin_explores hs c _ _) ?_
  rintro explores _ ⟨_, s'⟩ ⟨_, t'⟩ ⟨rfl, rfl, rfl, hs'⟩
  cases explores with
  | true =>
    rw [hc.channels_table]
    refine Twin.bind ((h.below hs').sharing c) ?_
    rintro i _ ⟨_, s''⟩ ⟨_, t''⟩ ⟨rfl, rfl, rfl, hi, hs''⟩
    refine Twin.bind (h.twin_enter hs'' c _) ?_
    exact fun _ _ _ _ hpq => ⟨⟨rfl, hi⟩, hpq⟩
  | false =>
    have hbest : c.table.bestIn slot < channels := by
      have hlt := c.table.bestIn_lt slot (by rw [hc.channels_table]; exact hc.channels_pos)
      rwa [hc.channels_table] at hlt
    refine Twin.bind (h.twin_enter hs' c _) ?_
    exact fun _ _ _ _ hpq =>
      ⟨⟨rfl, Int.natCast_nonneg _, Int.ofNat_lt.2 hbest⟩, hpq⟩

theorem Coupled.twin_chooseEach (h : Coupled needs needs' slots channels Held)
    (hs : Held ds s t) (hc : c.Valid slots channels) {rest : List Nat}
    (hrest : ∀ slot ∈ rest, slot < slots) :
    Twin (chooseEach needs rest) (chooseEach needs' rest) (c, s) (c, t) fun a b p q =>
      (a = b ∧ a.length = rest.length ∧ ∀ i ∈ a, 0 ≤ i ∧ i < channels) ∧
        Sharing c (Held ds) p q := by
  induction rest generalizing s t with
  | nil => exact ⟨⟨rfl, rfl, fun i hi => absurd hi List.not_mem_nil⟩, rfl, rfl, hs⟩
  | cons slot rest ih =>
    unfold chooseEach
    refine Twin.bind (h.twin_chooseAction hs hc (hrest slot List.mem_cons_self)) ?_
    rintro i _ ⟨_, s'⟩ ⟨_, t'⟩ ⟨⟨rfl, hi⟩, rfl, rfl, hs'⟩
    refine Twin.bind (ih hs' fun x hx => hrest x (List.mem_cons_of_mem _ hx)) ?_
    rintro is _ p q ⟨⟨rfl, hlen, his⟩, hpq⟩
    refine ⟨⟨rfl, by rw [List.length_cons, List.length_cons, hlen], ?_⟩, hpq⟩
    exact List.forall_mem_cons.2 ⟨hi, his⟩

/-- The policy has a channel of the table for every slot. -/
theorem Coupled.twin_computePolicy (h : Coupled needs needs' slots channels Held)
    (hs : Held ds s t) (hc : c.Valid slots channels) :
    Twin (computePolicy needs) (computePolicy needs') (c, s) (c, t) fun a b p q =>
      (a = b ∧ IsConfiguration slots channels (Datum.ofInts a)) ∧ Sharing c (Held ds) p q := by
  unfold computePolicy
  simp only [twin_part_bind, hc.slots_table]
  refine (h.twin_chooseEach hs hc fun slot hslot => List.mem_range.1 hslot).mono ?_
  rintro a _ p q ⟨⟨rfl, hlen, ha⟩, hpq⟩
  exact ⟨⟨rfl, a, rfl, hlen.trans List.length_range, ha⟩, hpq⟩

/-! ### Deploying and learning -/

omit [Arith α] in
theorem Coupled.twin_deployConfiguration (h : Coupled needs needs' slots channels Held)
    (hs : Held ds s t) (hslots : c.table.slots = slots) {configuration : List Datum}
    (hcfg : IsConfiguration slots channels configuration) :
    Twin (deployConfiguration needs configuration) (deployConfiguration needs' configuration)
      (c, s) (c, t) fun a b p q => a = b ∧
        Sharing (c.answered ⟨configuration, a⟩) (Held (ds ++ [⟨configuration, a⟩])) p q := by
  unfold deployConfiguration
  have hlen : ¬configuration.length ≠ c.table.slots := by rw [hcfg.length_eq, hslots]; simp
  simp only [twin_part_bind, if_neg hlen]
  refine Twin.bind ((h.deploy hs hcfg).sharing c) ?_
  rintro answer _ ⟨_, s'⟩ ⟨_, t'⟩ ⟨rfl, rfl, rfl, hs'⟩
  cases answer with
  | true =>
    simp only [if_pos, twin_change_bind]
    refine Twin.bind (h.twin_remark hs' _ _) ?_
    exact fun _ _ _ _ hpq => ⟨rfl, hpq⟩
  | false =>
    refine Twin.bind (h.twin_remark hs' _ _) ?_
    exact fun _ _ _ _ hpq => ⟨rfl, hpq⟩

theorem Coupled.twin_deployPolicy (h : Coupled needs needs' slots channels Held)
    (hs : Held ds s t) (hc : c.Valid slots channels) :
    Twin (deployPolicy needs) (deployPolicy needs') (c, s) (c, t) fun _ _ p q =>
      ∃ d, IsConfiguration slots channels d.configuration ∧
        Sharing (c.answered d) (Held (ds ++ [d])) p q := by
  unfold deployPolicy
  refine Twin.bind (h.twin_computePolicy hs hc) ?_
  rintro policy _ ⟨_, s'⟩ ⟨_, t'⟩ ⟨⟨rfl, hcfg⟩, rfl, rfl, hs'⟩
  refine (h.twin_deployConfiguration hs' hc.slots_table hcfg).mono ?_
  exact fun answer _ p q hpq => ⟨⟨_, answer⟩, hcfg, hpq.2⟩

omit [Arith α] in
theorem Coupled.twin_epochPassed (h : Coupled needs needs' slots channels Held) (hs : Held ds s t)
    (a : Activation) (sender : Activation → String) :
    Twin (Settling.epochPassed sender) (Settling.epochPassed sender) (a, s) (a, t)
      fun _ _ => Sharing a.advance (Held ds) := by
  unfold Settling.epochPassed Activation.advance
  rw [twin_part_bind]
  cases ha : a.active with
  | true => exact ⟨rfl, rfl, hs⟩
  | false =>
    simp only [Bool.false_eq_true, if_false, twin_change_bind, twin_part_bind]
    refine Twin.bind (h.twin_enter hs a.counted _) ?_
    rintro _ _ ⟨_, s'⟩ ⟨_, t'⟩ ⟨rfl, rfl, hs'⟩
    cases hd : a.counted.isDue with
    | false => exact ⟨rfl, rfl, hs'⟩
    | true =>
      simp only [Bool.not_true, Bool.false_eq_true, if_false, if_true, twin_change_bind,
        twin_part_bind]
      refine Twin.bind (h.twin_enter hs' a.counted.opened _) ?_
      exact fun _ _ _ _ hpq => hpq

omit [Arith α] in
theorem Coupled.twin_settle (h : Coupled needs needs' slots channels Held) (hs : Held ds s t)
    (c : ChannelHopping α) :
    Twin settle settle (c, s) (c, t) fun _ _ =>
      Sharing { c with activation := c.activation.advance } (Held ds) := by
  unfold settle
  rw [twin_part_bind]
  exact Twin.bind (h.twin_epochPassed hs c.activation _).within fun _ _ _ _ hpq => hpq

omit [Arith α] in
/-- The updates of a pass are entered one after the other. -/
theorem Coupled.twin_enterRewards (h : Coupled needs needs' slots channels Held)
    (hs : Held ds s t) (table : ValueTable α) (rewards : List (Reward α)) (n : Reward α → Note) :
    Twin (rewards.forM fun r => do Action.change r.enter; Action.note (n r))
      (rewards.forM fun r => do Action.change r.enter; Action.note (n r)) (table, s) (table, t)
      fun _ _ => Sharing (rewards.foldl (fun t r => r.enter t) table) (Held ds) := by
  induction rewards generalizing table s t with
  | nil => exact ⟨rfl, rfl, hs⟩
  | cons r rest ih =>
    refine Twin.bind (twin_change_bind.2 (h.twin_enter hs (r.enter table) (n r))) ?_
    rintro _ _ ⟨_, s'⟩ ⟨_, t'⟩ ⟨rfl, rfl, hs'⟩
    exact ih hs' (r.enter table)

/-- The lookahead rule, applied update by update, yields the snapshot rule. -/
theorem Coupled.twin_apply (h : Coupled needs needs' slots channels Held) (hs : Held ds s t)
    (p : Parameters α) {outcomes : OutcomeTracker} {table : ValueTable α}
    {configuration : List Datum} (hslots : outcomes.slots = table.slots)
    (hchannels : outcomes.channels = table.channels)
    (hcfg : IsConfiguration table.slots table.channels configuration) :
    Twin (Lookahead.apply p outcomes configuration) (Lookahead.apply p outcomes configuration)
      (table, s) (table, t)
      fun _ _ => Sharing (Lookahead.snapshot p outcomes.cell configuration table) (Held ds) := by
  obtain ⟨hfault, hrewards⟩ := Lookahead.pass_eq (p := p) hslots hchannels hcfg
  unfold Lookahead.apply
  simp only [twin_part_bind, hfault]
  refine Twin.bind (h.twin_enterRewards hs table _ _) ?_
  rw [hrewards]
  exact fun _ _ _ _ hpq => hpq

/-- Learning is the snapshot rule. -/
theorem Coupled.twin_learn (h : Coupled needs needs' slots channels Held) (hs : Held ds s t)
    (hc : c.Valid slots channels) (hactive : c.active = true) :
    Twin learn learn (c, s) (c, t) fun _ _ => Sharing c.taught (Held ds) := by
  unfold learn
  rw [twin_part_bind]
  cases hd : c.deployed with
  | false =>
    have htaught : c.taught = c := by simp [taught, hd]
    rw [htaught]
    exact h.twin_remark hs c _
  | true =>
    have htaught : c.taught =
        { c with table := Lookahead.snapshot c.params c.outcomes.cell c.configuration c.table } := by
      simp [taught, hd, hactive]
    simp only [htaught, Bool.not_true, Bool.false_eq_true, if_false]
    refine (h.twin_apply hs c.params (hc.slots_outcomes.trans hc.slots_table.symm)
      (hc.channels_outcomes.trans hc.channels_table.symm) ?_).within
    rw [hc.slots_table, hc.channels_table]
    exact hc.configured

/-! ### Closing a slotframe -/

omit [Arith α] [Journal σ] [Journal τ] in
theorem Valid.answered (hc : c.Valid slots channels) {d : Deployment}
    (hd : IsConfiguration slots channels d.configuration) : (c.answered d).Valid slots channels := by
  unfold ChannelHopping.answered
  split
  · exact { hc with configured := hd }
  · exact hc

omit [Journal σ] [Journal τ] in
theorem Valid.taught (hc : c.Valid slots channels) : c.taught.Valid slots channels := by
  unfold ChannelHopping.taught
  split
  · exact { hc with }
  · exact hc

omit [Arith α] [Journal σ] [Journal τ] in
theorem Valid.ticked (hc : c.Valid slots channels) : c.ticked.Valid slots channels := { hc with }

omit [Arith α] [Journal σ] [Journal τ] in
theorem Valid.forgetful (hc : c.Valid slots channels) : c.forgetful.Valid slots channels :=
  { hc with }

omit [Arith α] [Journal σ] [Journal τ] in
@[simp] theorem activation_answered (c : ChannelHopping α) (d : Deployment) :
    (c.answered d).activation = c.activation := by
  unfold answered
  split <;> rfl

omit [Journal σ] [Journal τ] in
@[simp] theorem activation_taught (c : ChannelHopping α) : c.taught.activation = c.activation := by
  unfold taught
  split <;> rfl

omit [Arith α] [Journal σ] [Journal τ] in
@[simp] theorem asn_answered (c : ChannelHopping α) (d : Deployment) :
    (c.answered d).asn = c.asn := by
  unfold answered
  split <;> rfl

omit [Journal σ] [Journal τ] in
@[simp] theorem asn_taught (c : ChannelHopping α) : c.taught.asn = c.asn := by
  unfold taught
  split <;> rfl

omit [Journal σ] [Journal τ] in
@[simp] theorem asn_closed (c : ChannelHopping α) (d : Deployment) : (c.closed d).asn = c.asn :=
  (asn_answered _ d).trans (asn_taught c.ticked)

omit [Journal σ] [Journal τ] in
theorem asn_reached (c : ChannelHopping α) (asn : Nat) (first policy : List Deployment) :
    (c.reached asn first policy).asn = some asn := by
  have hfold : ∀ (f : ChannelHopping α → Deployment → ChannelHopping α),
      (∀ c d, (f c d).asn = c.asn) → ∀ (ds : List Deployment) (c : ChannelHopping α),
        (ds.foldl f c).asn = c.asn := by
    intro f hf ds
    induction ds with
    | nil => exact fun _ => rfl
    | cons d ds ih => exact fun c => (ih (f c d)).trans (hf c d)
  rw [reached, hfold closed asn_closed, hfold answered asn_answered]

omit [Arith α] [Journal σ] [Journal τ] in
theorem asn_informed (c : ChannelHopping α) (slot channel : Nat) (success : Bool) :
    (c.informed slot channel success).asn = c.asn := by
  unfold informed
  split <;> rfl

omit [Journal σ] [Journal τ] in
theorem taught_of_not_active (h : c.active = false) : c.taught = c := by
  unfold taught
  rw [h]
  rfl

theorem Coupled.twin_updateEpoch (h : Coupled needs needs' slots channels Held) (hs : Held ds s t)
    (hc : c.Valid slots channels) :
    Twin (updateEpoch needs) (updateEpoch needs') (c, s) (c, t) fun _ _ p q =>
      ∃ d, IsConfiguration slots channels d.configuration ∧
        Sharing (c.closed d) (Held (ds ++ [d])) p q := by
  unfold updateEpoch
  simp only [twin_change_bind, twin_part_bind]
  generalize hact : ({ c with epochs := c.epochs + 1 } : ChannelHopping α).active = active
  have hforget : ∀ d, (c.ticked.taught.forgetful.answered d).activation = c.activation :=
    fun d => (activation_answered _ d).trans (activation_taught c.ticked)
  cases active with
  | true =>
    have hclosed : ∀ d, c.closed d = c.ticked.taught.forgetful.answered d := by
      intro d
      have hadvance : c.activation.advance = c.activation := if_pos hact
      rw [closed, hadvance, ← hforget d]
    simp only [if_true, Bool.not_true, Bool.false_eq_true, if_false]
    refine Twin.bind (h.twin_learn hs hc.ticked hact) ?_
    rintro _ _ ⟨_, s'⟩ ⟨_, t'⟩ ⟨rfl, rfl, hs'⟩
    refine twin_change_bind.2 (Twin.bind (h.twin_deployPolicy hs' hc.ticked.taught.forgetful) ?_)
    rintro _ _ ⟨_, s''⟩ ⟨_, t''⟩ ⟨d, hd, rfl, rfl, hs''⟩
    exact ⟨d, hd, hclosed d, hclosed d, hs''⟩
  | false =>
    have htaught : c.ticked.taught = c.ticked := taught_of_not_active hact
    simp only [Bool.false_eq_true, if_false, Bool.not_false, if_true]
    refine twin_change_bind.2 (Twin.bind (h.twin_deployPolicy hs hc.ticked.forgetful) ?_)
    rintro _ _ ⟨_, s'⟩ ⟨_, t'⟩ ⟨d, hd, rfl, rfl, hs'⟩
    refine (h.twin_settle hs' _).mono ?_
    rintro _ _ ⟨_, s''⟩ ⟨_, t''⟩ ⟨rfl, rfl, hs''⟩
    have hclosed : c.closed d = { c.ticked.forgetful.answered d with
        activation := (c.ticked.forgetful.answered d).activation.advance } := by
      rw [closed, htaught, activation_answered]
      rfl
    exact ⟨d, hd, hclosed, hclosed, hs''⟩

/-! ### Events -/

/-- A slot that starts a slotframe closes the one before, if there was one. -/
def Closes (slots asn : Nat) : Prop := 0 < asn ∧ asn % slots = 0

instance (slots asn : Nat) : Decidable (Closes slots asn) :=
  inferInstanceAs (Decidable (0 < asn ∧ asn % slots = 0))

/-- What is deployed at the start of a slot: the configuration to begin with, at the very first
one, and a policy, if the slot closes a slotframe. -/
structure Handed (slots channels : Nat) (c : ChannelHopping α) (asn : Nat)
    (first policy : List Deployment) : Prop where
  first_eq : if c.asn.isNone then ∃ answer, first = [⟨c.configuration, answer⟩] else first = []
  policy_eq : if Closes slots asn then
    ∃ d, policy = [d] ∧ IsConfiguration slots channels d.configuration else policy = []

omit [Arith α] in
theorem Handed.first_eq_nil {asn b : Nat} {first policy : List Deployment}
    (h : Handed slots channels c asn first policy) (hb : c.asn = some b) : first = [] := by
  have hfirst := h.first_eq
  rwa [hb, Option.isNone_some, if_neg Bool.false_ne_true] at hfirst

omit [Arith α] in
theorem Handed.policy_eq_nil {asn : Nat} {first policy : List Deployment}
    (h : Handed slots channels c asn first policy) (hcloses : ¬Closes slots asn) : policy = [] := by
  have hpolicy := h.policy_eq
  rwa [if_neg hcloses] at hpolicy

theorem Coupled.twin_closeIfDue (h : Coupled needs needs' slots channels Held) (hs : Held ds s t)
    (hc : c.Valid slots channels) (asn : Nat) :
    Twin (if Closes slots asn then updateEpoch needs else pure ())
      (if Closes slots asn then updateEpoch needs' else pure ()) (c, s) (c, t) fun _ _ p q =>
      ∃ policy, (if Closes slots asn then
          ∃ d, policy = [d] ∧ IsConfiguration slots channels d.configuration else policy = []) ∧
        Sharing (policy.foldl closed c) (Held (ds ++ policy)) p q := by
  by_cases hclose : Closes slots asn
  · simp only [if_pos hclose]
    refine (h.twin_updateEpoch hs hc).mono ?_
    rintro _ _ p q ⟨d, hd, hpq⟩
    exact ⟨[d], ⟨d, rfl, hd⟩, hpq⟩
  · simp only [if_neg hclose]
    refine ⟨[], rfl, rfl, rfl, ?_⟩
    rwa [List.append_nil]

theorem Coupled.twin_onSlotBoundary (h : Coupled needs needs' slots channels Held)
    (hs : Held ds s t) (hc : c.Valid slots channels) {asn : Nat}
    (hlater : ∀ last, c.asn = some last → last < asn) :
    Twin (onSlotBoundary needs (.int asn)) (onSlotBoundary needs' (.int asn)) (c, s) (c, t)
      fun _ _ p q => ∃ first policy, Handed slots channels c asn first policy ∧
        Sharing (c.reached asn first policy) (Held (ds ++ first ++ policy)) p q := by
  have hasn : checkSlotNumber (.int asn) = .ok asn := by simp [checkSlotNumber]
  have hvalid : ({ c with asn := some asn } : ChannelHopping α).Valid slots channels := { hc with }
  unfold onSlotBoundary
  simp only [twin_ofExcept_bind, hasn, Except.ok.injEq, exists_and_left, exists_eq_left',
    twin_part_bind, hc.slots_table]
  cases hlast : c.asn with
  | none =>
    simp only [twin_change_bind, Option.isNone_none, if_true]
    refine Twin.bind (h.twin_deployConfiguration (c := { c with asn := some asn }) hs hc.slots_table
      hc.configured) ?_
    rintro answer _ ⟨_, s'⟩ ⟨_, t'⟩ ⟨rfl, rfl, rfl, hs'⟩
    refine (h.twin_closeIfDue hs' (hvalid.answered hc.configured) asn).mono ?_
    rintro _ _ p q ⟨policy, hpolicy, hpq⟩
    refine ⟨[⟨c.configuration, answer⟩], policy, ⟨?_, hpolicy⟩, hpq⟩
    rw [hlast]
    exact ⟨answer, rfl⟩
  | some last =>
    have hnot : ¬asn ≤ last := Nat.not_le.2 (hlater last hlast)
    simp only [if_neg hnot, twin_change_bind, Option.isNone_some, Bool.false_eq_true, if_false]
    refine (h.twin_closeIfDue hs hvalid asn).mono ?_
    rintro _ _ p q ⟨policy, hpolicy, hpq⟩
    refine ⟨[], policy, ⟨?_, hpolicy⟩, ?_⟩
    · rw [hlast]
      rfl
    · rwa [List.append_nil]

omit [Arith α] in
theorem Coupled.twin_recordOutcome (h : Coupled needs needs' slots channels Held)
    (hs : Held ds s t) (hc : c.Valid slots channels) {slot channel : Nat} (hslot : slot < slots)
    (hchannel : channel < channels) (success : Bool) :
    Twin (recordOutcome (.int slot) (.int channel) success)
      (recordOutcome (.int slot) (.int channel) success) (c, s) (c, t)
      fun _ _ => Sharing (c.informed slot channel success) (Held ds) := by
  have hs' : (slot : Int) < c.table.slots := Int.ofNat_lt.2 (by rwa [hc.slots_table])
  have hc' : (channel : Int) < c.table.channels := Int.ofNat_lt.2 (by rwa [hc.channels_table])
  have hso : (slot : Int) < c.outcomes.slots := Int.ofNat_lt.2 (by rwa [hc.slots_outcomes])
  have hco : (channel : Int) < c.outcomes.channels :=
    Int.ofNat_lt.2 (by rwa [hc.channels_outcomes])
  have hrecord : c.outcomes.record (.int slot) (.int channel) success
      = .ok (if success then c.outcomes.set slot channel true else c.outcomes) := by
    simp only [OutcomeTracker.record, OutcomeTracker.checkSlot, OutcomeTracker.checkChannel,
      checkIndex_int_of_lt _ _ (Int.natCast_nonneg slot) hso,
      checkIndex_int_of_lt _ _ (Int.natCast_nonneg channel) hco, Int.toNat_natCast]
    rfl
  unfold recordOutcome informed
  simp only [twin_part_bind, twin_ofExcept_bind, twin_change_bind,
    checkIndex_int_of_lt _ _ (Int.natCast_nonneg slot) hs',
    checkIndex_int_of_lt _ _ (Int.natCast_nonneg channel) hc', Int.toNat_natCast, Except.ok.injEq,
    exists_and_left, exists_eq_left']
  cases hact : c.active with
  | false => exact h.twin_remark hs _ _
  | true =>
    simp only [Bool.not_true, Bool.false_eq_true, if_false]
    refine Twin.bind (h.twin_remark hs _ _) ?_
    rintro _ _ ⟨_, s'⟩ ⟨_, t'⟩ ⟨rfl, rfl, hs''⟩
    exact twin_ofExcept_bind.2 ⟨_, _, hrecord, hrecord, rfl, rfl, hs''⟩

end ChannelHopping
end TschLearning
