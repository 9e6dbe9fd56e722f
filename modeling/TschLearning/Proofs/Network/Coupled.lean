import TschLearning.Network
import TschLearning.Proofs.Action.Twin
import TschLearning.Proofs.Mac.Schedules

/-! Two runs of a network in different surroundings. If the devices are alike apart from the form
of their schedules, and draws and sinks answer alike, then slot by slot the same devices transmit
on the same channels with the same outcomes. -/

namespace TschLearning

/-- Where a run has come to: the channel that every slot is used on, the slot at hand, and whether
its boundary was delivered. -/
structure Phase where
  plan : Nat → Option Nat
  asn : Nat
  begun : Bool

namespace Network

open TschLearning.Action

variable {μ κ ο σ τ α : Type}

/-- A network whose slots and channels are in order, with one model of interference for all of
its channels. -/
structure Regular (slots channels : Nat) (net : Network μ ο α) : Prop where
  slots_pos : 0 < slots
  channels_lt : channels < addressable
  slots_eq : net.slots = .int slots
  interference_eq : net.interference.channels = channels
  traffic_ok : ∃ q, net.traffic = .ok q

/-- Two devices alike: with one name and one sink, and in every slot with the planned channel or
with none. -/
structure Alike (k : κ) (plan : Nat → Option Nat) (m m' : Mac κ) : Prop where
  name_eq : m.name = m'.name
  named : m.name.IsKey
  sink_left : m.sink = some k
  sink_right : m'.sink = some k
  channelFor_eq : ∀ t : Nat, ∃ c, m.channelFor (.int t) = .ok c ∧ m'.channelFor (.int t) = .ok c ∧
    (c = none ∨ c = (plan t).map Int.ofNat)

variable [Journal σ] [Journal τ]

/-- Two surroundings that answer alike as long as the states are related; `k` is the one sink of
the devices `ids`. -/
structure Coupled (env : Surroundings μ κ ο σ α) (env' : Surroundings μ κ ο τ α) (k : κ)
    (slots channels : Nat) (ids : List μ) (Rel : Phase → σ → τ → Prop) : Prop where
  plan_lt : ∀ {ph s t}, Rel ph s t → ∀ {i c}, ph.plan i = some c → c < channels
  read : ∀ {ph s t i}, Rel ph s t → i ∈ ids →
    Twin (env.macs.read i) (env'.macs.read i) s t fun m m' s' t' =>
      Alike k ph.plan m m' ∧ Rel ph s' t'
  update : ∀ {ph s t i} {β : Type} {f : Mac κ → β × Mac κ}, Rel ph s t → i ∈ ids →
    Mac.Routine f →
    Twin (env.macs.update i fun m => .ok (f m)) (env'.macs.update i fun m => .ok (f m)) s t
      fun a b s' t' => a = b ∧ Rel ph s' t'
  uniform : ∀ {ph s t}, Rel ph s t →
    Twin env.draws.uniform env'.draws.uniform s t fun u v s' t' => u = v ∧ Rel ph s' t'
  note : ∀ {ph s t} (n : Note), Rel ph s t → Journal.obstacle? n s = none ∧
    Journal.obstacle? n t = none ∧ Rel ph (Journal.enter n s) (Journal.enter n t)
  boundary : ∀ {plan asn s t}, Rel ⟨plan, asn, false⟩ s t → ids ≠ [] →
    Twin (env.boundary k asn) (env'.boundary k asn) s t fun _ _ s' t' =>
      ∃ plan, Rel ⟨plan, asn, true⟩ s' t'
  outcome : ∀ {plan asn s t c} (success : Bool), Rel ⟨plan, asn, true⟩ s t → ids ≠ [] →
    plan (asn % slots) = some c →
    Twin (env.outcome k (.int (asn % slots : Nat)) c success)
      (env'.outcome k (.int (asn % slots : Nat)) c success) s t
      fun _ _ => Rel ⟨plan, asn, true⟩
  overheard : ∀ {ph s t} (slot : Datum), Rel ph s t →
    Twin (env.overheard k slot) (env'.overheard k slot) s t fun _ _ => Rel ph
  observe : ∀ {ph s t} (o : ο) {r : TransmissionRecord μ}, Rel ph s t →
    r.senderName.IsKey →
    Twin (env.observe o r) (env'.observe o r) s t fun _ _ => Rel ph
  -- a slot ends, and without devices it passes
  passed : ∀ {plan asn begun s t}, Rel ⟨plan, asn, begun⟩ s t → begun = true ∨ ids = [] →
    Rel ⟨plan, asn + 1, false⟩ s t

variable {env : Surroundings μ κ ο σ α} {env' : Surroundings μ κ ο τ α} {k : κ}
  {slots channels : Nat} {ids : List μ} {Rel : Phase → σ → τ → Prop} {ph : Phase} {s : σ} {t : τ}
  {net : Network μ ο α}

namespace Coupled

theorem twin_note (h : Coupled env env' k slots channels ids Rel) (hs : Rel ph s t) (n : Note) :
    Twin (Action.note n) (Action.note n) s t fun _ _ => Rel ph :=
  Action.twin_note.2 (h.note n hs)

/-! ### The start of a slot -/

theorem twin_announce (h : Coupled env env' k slots channels ids Rel) (hs : Rel ph s t) (asn : Nat)
    {rest : List μ} (hrest : rest ⊆ ids) :
    Twin (announce env asn rest) (announce env' asn rest) s t fun _ _ => Rel ph := by
  induction rest generalizing s t with
  | nil => exact hs
  | cons i rest ih =>
    rw [List.cons_subset] at hrest
    refine Twin.bind (h.update hs hrest.1 (Mac.routine_at (some asn))) ?_
    rintro _ _ s' t' ⟨-, hs'⟩
    exact ih hs' hrest.2

theorem twin_sinksOf (h : Coupled env env' k slots channels ids Rel) (hs : Rel ph s t)
    {rest : List μ} (hrest : rest ⊆ ids) :
    Twin (sinksOf env rest) (sinksOf env' rest) s t fun a b s' t' =>
      (a = List.replicate rest.length k ∧ b = a) ∧ Rel ph s' t' := by
  induction rest generalizing s t with
  | nil => exact ⟨⟨rfl, rfl⟩, hs⟩
  | cons i rest ih =>
    rw [List.cons_subset] at hrest
    refine Twin.bind (h.read hs hrest.1) ?_
    rintro m m' s' t' ⟨hm, hs'⟩
    refine Twin.bind (ih hs' hrest.2) ?_
    rintro a _ s'' t'' ⟨⟨rfl, rfl⟩, hs''⟩
    refine ⟨⟨?_, ?_⟩, hs''⟩
    · rw [hm.sink_left]
      rfl
    · rw [hm.sink_left, hm.sink_right]

theorem eraseDups_replicate [DecidableEq κ] (k : κ) (n : Nat) :
    (List.replicate (n + 1) k).eraseDups = [k] := by
  have hnone : (List.replicate n k).filter (fun b => !b == k) = [] := by
    simp
  rw [List.replicate_succ, List.eraseDups_cons, hnone]
  rfl

theorem twin_deliverBoundary [DecidableEq κ] (h : Coupled env env' k slots channels ids Rel)
    (hne : ids ≠ []) {plan : Nat → Option Nat} {asn : Nat} (hs : Rel ⟨plan, asn, false⟩ s t) :
    Twin (deliverBoundary env asn (List.replicate ids.length k).eraseDups)
      (deliverBoundary env' asn (List.replicate ids.length k).eraseDups) s t
      fun _ _ s' t' => ∃ plan, Rel ⟨plan, asn, true⟩ s' t' := by
  have hlen : ids.length = ids.length - 1 + 1 := by
    have := List.length_pos_iff.2 hne
    omega
  rw [hlen, eraseDups_replicate]
  exact Twin.bind (h.boundary hs hne) fun _ _ _ _ hs' => hs'

/-! ### Transmissions -/

section Transmissions

variable [Arith α]

theorem twin_generate (h : Coupled env env' k slots channels ids Rel) (hs : Rel ph s t) {q : α}
    {i : μ} (hi : i ∈ ids) :
    Twin (generate env (.ok q) i) (generate env' (.ok q) i) s t fun _ _ => Rel ph := by
  unfold generate
  simp only [twin_ofExcept_bind, Except.ok.injEq, exists_and_left, exists_eq_left']
  cases Arith.lt 0 q with
  | false => exact hs
  | true =>
    refine Twin.bind (h.uniform hs) ?_
    rintro u _ s' t' ⟨rfl, hs'⟩
    cases hu : Arith.lt u q with
    | false => exact hs'
    | true =>
      refine (h.update hs' hi (Mac.routine_request .null (.int 0))).mono ?_
      exact fun _ _ _ _ hpost => hpost.2

/-- The same devices transmit, all of them on the channel that is planned for the slot. -/
theorem twin_transmitters (h : Coupled env env' k slots channels ids Rel) (hs : Rel ph s t) (q : α)
    (slot : Nat) {rest : List μ} (hrest : rest ⊆ ids) :
    Twin (transmitters env (.ok q) (.int slot) rest) (transmitters env' (.ok q) (.int slot) rest) s t
      fun a b s' t' =>
        (a = b ∧ ∀ e ∈ a, e.1 ∈ ids ∧ ∃ c, ph.plan slot = some c ∧ e.2 = (c : Int)) ∧
          Rel ph s' t' := by
  induction rest generalizing s t with
  | nil => exact ⟨⟨rfl, fun e he => absurd he List.not_mem_nil⟩, hs⟩
  | cons i rest ih =>
    rw [List.cons_subset] at hrest
    unfold transmitters
    refine Twin.bind (h.read hs hrest.1) ?_
    rintro m m' s' t' ⟨hm, hs'⟩
    obtain ⟨c, hc, hc', hplan⟩ := hm.channelFor_eq slot
    simp only [twin_ofExcept_bind, hc, hc', Except.ok.injEq, exists_and_left, exists_eq_left']
    cases c with
    | none => exact ih hs' hrest.2
    | some c =>
      obtain ⟨n, hn, rfl⟩ : ∃ n, ph.plan slot = some n ∧ c = (n : Int) := by
        have hsome := hplan.resolve_left (Option.some_ne_none _)
        obtain ⟨n, hn, he⟩ := Option.map_eq_some_iff.1 hsome.symm
        exact ⟨n, hn, he.symm⟩
      refine Twin.bind (h.twin_generate hs' hrest.1) ?_
      rintro _ _ s'' t'' hs''
      refine Twin.bind (h.update hs'' hrest.1 Mac.routine_popFrame) ?_
      rintro frame _ u v ⟨rfl, huv⟩
      refine Twin.bind (ih huv hrest.2) ?_
      rintro others _ u' v' ⟨⟨rfl, hothers⟩, huv'⟩
      refine ⟨⟨rfl, ?_⟩, huv'⟩
      cases frame with
      | none => exact hothers
      | some f => exact List.forall_mem_cons.2 ⟨⟨hrest.1, n, hn, rfl⟩, hothers⟩

/-! ### Outcomes -/

omit [Journal σ] [Journal τ] [Arith α] in
/-- A channel below the number of those of a model has a probability in it. -/
theorem probabilityAt_eq_ok {m : Interference α} {c : Nat} (hc : c < m.channels) :
    ∃ p, m.probabilityAt c = .ok p := by
  have hneg : ¬(c : Int) < 0 := by omega
  have hlen : c < m.probabilities.length := hc
  refine ⟨m.probabilities[c], ?_⟩
  simp [Interference.probabilityAt, Interference.probability?, hneg,
    List.getElem?_eq_getElem hlen]

omit [Journal σ] [Journal τ] [Arith α] in
theorem pick_eq_ok {m : Interference α} {c : Nat} (hc : c < m.channels)
    (hm : m.channels < addressable) : ∃ p, m.pick (.int c) = .ok p := by
  have hsigned : Word.isSigned (c : Int) = true := by
    refine decide_eq_true ?_
    unfold addressable at hm
    unfold Word.limit
    omega
  obtain ⟨p, hp⟩ := probabilityAt_eq_ok hc
  exact ⟨p, by simp [Interference.pick, hsigned, hp]⟩

theorem twin_statusOf (h : Coupled env env' k slots channels ids Rel) (hs : Rel ph s t)
    (hnet : net.Regular slots channels) (slot : Datum) (sender : String) {c : Nat}
    (hc : c < channels) (rivals : Nat) :
    Twin (statusOf env net slot sender c rivals) (statusOf env' net slot sender c rivals) s t
      fun a b s' t' => a = b ∧ Rel ph s' t' := by
  obtain ⟨p, hp⟩ : ∃ p, net.interference.pick (.int c) = .ok p :=
    pick_eq_ok (by rw [hnet.interference_eq]; exact hc)
      (by rw [hnet.interference_eq]; exact hnet.channels_lt)
  unfold statusOf
  by_cases hrivals : 1 < rivals
  · simp only [if_pos hrivals]
    refine Twin.bind (h.twin_note hs _) ?_
    exact fun _ _ _ _ hs' => ⟨rfl, hs'⟩
  · simp only [if_neg hrivals]
    have hdisturbed : Twin (net.interference.disturbed env.draws (.int c))
        (net.interference.disturbed env'.draws (.int c)) s t
        fun a b s' t' => a = b ∧ Rel ph s' t' := by
      unfold Interference.disturbed
      rw [hp]
      refine Twin.bind (h.uniform hs) ?_
      rintro u _ s' t' ⟨rfl, hs'⟩
      exact ⟨rfl, hs'⟩
    refine Twin.bind hdisturbed ?_
    rintro a _ s' t' ⟨rfl, hs'⟩
    cases a <;> exact ⟨rfl, hs'⟩

omit [Arith α] in
theorem twin_trigger (h : Coupled env env' k slots channels ids Rel) (hs : Rel ph s t)
    (observers : Notifier ο) (value : Datum) {r : TransmissionRecord μ}
    (hname : r.senderName.IsKey) :
    Twin (observers.trigger value (env.observe · r)) (observers.trigger value (env'.observe · r)) s t
      fun _ _ => Rel ph := by
  unfold Notifier.trigger
  refine Twin.bind (h.twin_note hs _) ?_
  rintro _ _ s' t' hs'
  induction observers.callees generalizing s' t' with
  | nil => exact hs'
  | cons o rest ih => exact Twin.bind (h.observe o hs' hname) fun _ _ _ _ hs'' => ih _ _ hs''

/-- Transmissions on the planned channel are confirmed alike. -/
theorem twin_confirm (h : Coupled env env' k slots channels ids Rel)
    (hnet : net.Regular slots channels) {plan : Nat → Option Nat} {asn : Nat}
    (hs : Rel ⟨plan, asn, true⟩ s t) (all : List (μ × Int)) {rest : List (μ × Int)}
    (hrest : ∀ e ∈ rest, e.1 ∈ ids ∧ ∃ c, plan (asn % slots) = some c ∧ e.2 = (c : Int)) :
    Twin (confirm env net (.int (asn % slots : Nat)) all rest)
      (confirm env' net (.int (asn % slots : Nat)) all rest) s t
      fun _ _ => Rel ⟨plan, asn, true⟩ := by
  induction rest generalizing s t with
  | nil => exact hs
  | cons e rest ih =>
    obtain ⟨i, ch⟩ := e
    obtain ⟨hi, c, hc, rfl⟩ := hrest (i, ch) List.mem_cons_self
    unfold confirm
    refine Twin.bind (h.read hs hi) ?_
    rintro m m' s' t' ⟨hm, hs'⟩
    have hlabel : m.label = m'.label := congrArg Mac.labelOf hm.name_eq
    simp only [hm.sink_left, hm.sink_right, hlabel, hm.name_eq]
    refine Twin.bind (h.twin_statusOf hs' hnet _ _ (h.plan_lt hs' hc) _) ?_
    rintro status _ s'' t'' ⟨rfl, hs''⟩
    refine Twin.bind (h.outcome _ hs'' (List.ne_nil_of_mem hi) hc) ?_
    rintro _ _ u v huv
    refine Twin.bind (h.twin_trigger huv _ _ (hm.name_eq ▸ hm.named)) ?_
    rintro _ _ u' v' huv'
    exact ih huv' fun e he => hrest e (List.mem_cons_of_mem _ he)

end Transmissions

theorem twin_deliverOverheard [DecidableEq μ] (h : Coupled env env' k slots channels ids Rel)
    (hs : Rel ph s t) (slot : Datum) (senders : List μ) {rest : List μ} (hrest : rest ⊆ ids) :
    Twin (deliverOverheard env slot senders rest) (deliverOverheard env' slot senders rest) s t
      fun _ _ => Rel ph := by
  induction rest generalizing s t with
  | nil => exact hs
  | cons i rest ih =>
    rw [List.cons_subset] at hrest
    unfold deliverOverheard
    refine Twin.bind (h.read hs hrest.1) ?_
    rintro m m' s' t' ⟨hm, hs'⟩
    simp only [hm.sink_left, hm.sink_right]
    by_cases hi : i ∈ senders
    · simp only [if_neg (not_not_intro hi)]
      exact ih hs' hrest.2
    · simp only [if_pos hi]
      exact Twin.bind (h.overheard slot hs') fun _ _ _ _ hs'' => ih hs'' hrest.2

/-! ### Slots -/

variable [DecidableEq μ] [DecidableEq κ] [Arith α]

omit [Journal σ] [Journal τ] [DecidableEq μ] [DecidableEq κ] [Arith α] in
theorem slotAt_eq_ok {slots : Nat} (h : 0 < slots) (asn : Nat) :
    slotAt (.int slots) asn = .ok (.int (asn % slots : Nat)) := by
  have hne : ¬(slots : Int) = 0 := by omega
  have hmod : Int.fmod asn slots = (asn % slots : Nat) := by
    rw [Int.fmod_eq_emod_of_nonneg _ (Int.natCast_nonneg slots), Int.natCast_emod]
  simp only [slotAt, Datum.number?, Number.remainder?, if_neg hne, hmod, Datum.ofNumber]

theorem twin_runSlot (h : Coupled env env' k slots channels net.macs Rel)
    (hnet : net.Regular slots channels) {plan : Nat → Option Nat}
    (hs : Rel ⟨plan, net.asn, false⟩ s t) :
    Twin (runSlot env net) (runSlot env' net) s t fun a b s' t' =>
      (a = { net with asn := net.asn + 1 } ∧ b = a) ∧
        ∃ plan, Rel ⟨plan, net.asn + 1, false⟩ s' t' := by
  obtain ⟨q, hq⟩ := hnet.traffic_ok
  unfold runSlot
  simp only [hnet.slots_eq, slotAt_eq_ok hnet.slots_pos, hq, twin_ofExcept_bind, Except.ok.injEq,
    exists_and_left, exists_eq_left']
  refine Twin.bind (h.twin_announce hs _ (List.Subset.refl _)) ?_
  rintro _ _ s₁ t₁ hs₁
  refine Twin.bind (h.twin_sinksOf hs₁ (List.Subset.refl _)) ?_
  rintro _ _ s₂ t₂ ⟨⟨rfl, rfl⟩, hs₂⟩
  by_cases hne : net.macs = []
  · rw [hne]
    exact ⟨⟨rfl, rfl⟩, plan, h.passed hs₂ (.inr hne)⟩
  · refine Twin.bind (h.twin_deliverBoundary hne hs₂) ?_
    rintro _ _ s₃ t₃ ⟨plan', hs₃⟩
    refine Twin.bind (h.twin_transmitters hs₃ q _ (List.Subset.refl _)) ?_
    rintro transmissions _ s₄ t₄ ⟨⟨rfl, hall⟩, hs₄⟩
    refine Twin.bind (h.twin_confirm hnet hs₄ transmissions hall) ?_
    rintro _ _ s₅ t₅ hs₅
    cases transmissions with
    | nil => exact ⟨⟨rfl, rfl⟩, plan', h.passed hs₅ (.inl rfl)⟩
    | cons e rest =>
      refine Twin.bind (h.twin_deliverOverheard hs₅ _ _ (List.Subset.refl _)) ?_
      rintro _ _ s₆ t₆ hs₆
      exact ⟨⟨rfl, rfl⟩, plan', h.passed hs₆ (.inl rfl)⟩

theorem twin_advance (h : Coupled env env' k slots channels net.macs Rel)
    (hnet : net.Regular slots channels) {plan : Nat → Option Nat}
    (hs : Rel ⟨plan, net.asn, false⟩ s t) :
    Twin (advance env) (advance env') (net, s) (net, t) fun _ _ =>
      Sharing { net with asn := net.asn + 1 } fun s' t' =>
        ∃ plan, Rel ⟨plan, net.asn + 1, false⟩ s' t' := by
  unfold advance
  rw [twin_part_bind]
  refine Twin.bind ((h.twin_runSlot hnet hs).sharing net) ?_
  rintro _ _ ⟨_, s'⟩ ⟨_, t'⟩ ⟨rfl, rfl, ⟨rfl, rfl⟩, hs'⟩
  exact ⟨rfl, rfl, hs'⟩

theorem twin_runSlots (n : Nat) (h : Coupled env env' k slots channels net.macs Rel)
    (hnet : net.Regular slots channels) {plan : Nat → Option Nat}
    (hs : Rel ⟨plan, net.asn, false⟩ s t) :
    Twin (runSlots env n) (runSlots env' n) (net, s) (net, t) fun _ _ =>
      Sharing { net with asn := net.asn + n } fun s' t' =>
        ∃ plan, Rel ⟨plan, net.asn + n, false⟩ s' t' := by
  induction n generalizing net plan s t with
  | zero => exact ⟨rfl, rfl, plan, hs⟩
  | succ n ih =>
    unfold runSlots
    refine Twin.bind (h.twin_advance hnet hs) ?_
    rintro _ _ ⟨_, s'⟩ ⟨_, t'⟩ ⟨rfl, rfl, plan', hs'⟩
    have hnext : Network.Regular slots channels { net with asn := net.asn + 1 } := { hnet with }
    have hrest := ih (by exact h) hnext hs'
    rwa [show net.asn + 1 + n = net.asn + (n + 1) by omega] at hrest

end Coupled
end Network
end TschLearning
