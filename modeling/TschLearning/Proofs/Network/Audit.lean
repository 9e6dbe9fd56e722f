import TschLearning.Proofs.Action.Keeps
import TschLearning.Proofs.Mac.Schedules
import TschLearning.Proofs.Statistics

/-! What the sinks of a network count, and what its statistics count. The outcome of a transmission
goes to the sink of the sender, its record to the statistics. Slot by slot both come to the same
sums, whichever devices share a sink or a name. -/

namespace TschLearning

/-- What is counted of the transmissions of a network: attempts and successes by sink, if the sink
counts at all, and the statistics. -/
structure Accounts (κ : Type) where
  counts : κ → Option (Nat × Nat)
  book : Statistics

namespace Accounts

variable {κ : Type} {ks : List κ} {a b : Accounts κ}

def attempts (a : Accounts κ) (k : κ) : Nat := ((a.counts k).getD (0, 0)).1

def successes (a : Accounts κ) (k : κ) : Nat := ((a.counts k).getD (0, 0)).2

/-- One more outcome for a sink, and nothing else. -/
structure Told (k : κ) (success : Bool) (a b : Accounts κ) : Prop where
  counted : ∃ n, a.counts k = some n ∧ b.counts k = some (n.1 + 1, n.2 + success.toNat)
  others : ∀ j, j ≠ k → b.counts j = a.counts j
  book_eq : b.book = a.book

theorem Told.attempts_eq {k : κ} {success : Bool} (h : Told k success a b) :
    b.attempts k = a.attempts k + 1 := by
  obtain ⟨n, ha, hb⟩ := h.counted
  simp only [attempts, ha, hb, Option.getD_some]

theorem Told.successes_eq {k : κ} {success : Bool} (h : Told k success a b) :
    b.successes k = a.successes k + success.toNat := by
  obtain ⟨n, ha, hb⟩ := h.counted
  simp only [successes, ha, hb, Option.getD_some]

/-- What the sinks have counted is what is in the statistics. -/
structure Balanced (ks : List κ) (a : Accounts κ) : Prop where
  attempts_eq : (ks.map a.attempts).sum = a.book.totalAttempts
  successes_eq : (ks.map a.successes).sum = a.book.totalSuccesses
  successes_le : ∀ k ∈ ks, a.successes k ≤ a.attempts k
  proper : a.book.Proper

theorem Balanced.count (h : Balanced ks a) (hks : ks.Nodup) {k : κ} (hk : k ∈ ks) {success : Bool}
    (hb : Told k success a b) (device : DeviceName) (spelling : Datum) (channel : Int) :
    Balanced ks { b with book := b.book.count device spelling channel success } where
  attempts_eq := by
    have hsum := sum_map_add_of_ne hks hk (f := a.attempts) (g := b.attempts) fun j _ hj => by
      rw [attempts, attempts, hb.others j hj]
    rw [h.attempts_eq, hb.attempts_eq] at hsum
    show (ks.map b.attempts).sum = (b.book.count device spelling channel success).totalAttempts
    rw [Statistics.totalAttempts_count, hb.book_eq]
    omega
  successes_eq := by
    have hsum := sum_map_add_of_ne hks hk (f := a.successes) (g := b.successes) fun j _ hj => by
      rw [successes, successes, hb.others j hj]
    rw [h.successes_eq, hb.successes_eq] at hsum
    show (ks.map b.successes).sum = (b.book.count device spelling channel success).totalSuccesses
    rw [Statistics.totalSuccesses_count, hb.book_eq]
    omega
  successes_le j hj := by
    have hle := h.successes_le j hj
    show b.successes j ≤ b.attempts j
    by_cases hjk : j = k
    · have hone := success.toNat_le
      rw [hjk] at hle ⊢
      rw [hb.attempts_eq, hb.successes_eq]
      omega
    · rw [attempts, successes, hb.others j hjk]
      exact hle
  proper := by
    show (b.book.count device spelling channel success).Proper
    rw [hb.book_eq]
    exact h.proper.count device spelling channel success

end Accounts

section Surroundings

open TschLearning.Action

variable {κ ο σ α : Type}

/-- The accounts are `a`, and every device has one of the sinks `ks`. -/
structure Shelf.Accounted (shelf : Shelf Nat (Mac κ) σ) (accounts : σ → Option (Accounts κ))
    (ids : List Nat) (ks : List κ) (a : Accounts κ) (s : σ) : Prop where
  accounts_eq : accounts s = some a
  attached : ∀ i ∈ ids, ∀ m, shelf.get? i s = some m → ∃ k ∈ ks, m.sink = some k

/-- Surroundings that keep accounts: nothing but outcomes and records changes them. -/
structure Surroundings.Audited [Journal σ] (env : Surroundings Nat κ ο σ α)
    (accounts : σ → Option (Accounts κ)) (ids : List Nat) (ks : List κ) (book : ο) : Prop where
  update : ∀ {β : Type} {f : Mac κ → β × Mac κ}, Mac.Routine f → ∀ i a,
    Keeps (env.macs.Accounted accounts ids ks a) (fun _ => True)
      (env.macs.update i fun m => .ok (f m))
  uniform : ∀ a, Keeps (env.macs.Accounted accounts ids ks a) (fun _ => True) env.draws.uniform
  note : ∀ a (n : Note) s, env.macs.Accounted accounts ids ks a s →
    env.macs.Accounted accounts ids ks a (Journal.enter n s)
  boundary : ∀ a, ∀ k ∈ ks, ∀ asn,
    Keeps (env.macs.Accounted accounts ids ks a) (fun _ => True) (env.boundary k asn)
  overheard : ∀ a, ∀ k ∈ ks, ∀ slot,
    Keeps (env.macs.Accounted accounts ids ks a) (fun _ => True) (env.overheard k slot)
  outcome : ∀ a, ∀ k ∈ ks, ∀ slot channel success s, env.macs.Accounted accounts ids ks a s →
    Meets True (env.outcome k slot channel success) s fun _ t =>
      ∃ b, Accounts.Told k success a b ∧ env.macs.Accounted accounts ids ks b t
  record : ∀ a r s, env.macs.Accounted accounts ids ks a s →
    Meets True (env.observe book r) s fun _ t => ∃ device,
      env.macs.Accounted accounts ids ks
        { a with book := a.book.count device r.senderName r.channel r.success } t
  aside : ∀ a, ∀ o ≠ book, ∀ r,
    Keeps (env.macs.Accounted accounts ids ks a) (fun _ => True) (env.observe o r)

end Surroundings

namespace Network

open TschLearning.Action

variable {κ ο σ α : Type} [Journal σ] {env : Surroundings Nat κ ο σ α}
  {accounts : σ → Option (Accounts κ)} {ids rest : List Nat} {ks : List κ} {book : ο}
  {a : Accounts κ}

section Slot

variable (h : env.Audited accounts ids ks book)

include h

/-! ### What leaves the accounts alone -/

theorem keeps_announce (asn : Nat) :
    Keeps (env.macs.Accounted accounts ids ks a) (fun _ => True) (announce env asn rest) := by
  induction rest with
  | nil => exact keeps_pure trivial
  | cons i rest ih => exact (h.update (Mac.routine_at (some asn)) i a).bind fun _ _ => ih

omit h [Journal σ] in
theorem keeps_read {i : Nat} (hi : i ∈ ids) :
    Keeps (env.macs.Accounted accounts ids ks a) (fun m => ∃ k ∈ ks, m.sink = some k)
      (env.macs.read i) := by
  intro s hs
  unfold Shelf.read
  cases hm : env.macs.get? i s with
  | none => exact hs
  | some m => exact ⟨hs.attached i hi m hm, hs⟩

omit h [Journal σ] in
theorem keeps_sinksOf (hrest : rest ⊆ ids) :
    Keeps (env.macs.Accounted accounts ids ks a) (fun sinks => sinks ⊆ ks) (sinksOf env rest) := by
  induction rest with
  | nil => exact keeps_pure (List.nil_subset ks)
  | cons i rest ih =>
    rw [List.cons_subset] at hrest
    refine (keeps_read hrest.1).bind fun m hm => ?_
    refine (ih hrest.2).bind fun sinks hsinks => keeps_pure ?_
    obtain ⟨k, hk, hsink⟩ := hm
    rw [hsink]
    exact List.cons_subset.2 ⟨hk, hsinks⟩

theorem keeps_deliverBoundary (asn : Nat) {sinks : List κ} (hsinks : sinks ⊆ ks) :
    Keeps (env.macs.Accounted accounts ids ks a) (fun _ => True)
      (deliverBoundary env asn sinks) := by
  induction sinks with
  | nil => exact keeps_pure trivial
  | cons k sinks ih =>
    rw [List.cons_subset] at hsinks
    exact (h.boundary a k hsinks.1 asn).bind fun _ _ => ih hsinks.2

variable [Arith α]

theorem keeps_generate (traffic : Except Fault α) (i : Nat) :
    Keeps (env.macs.Accounted accounts ids ks a) (fun _ => True) (generate env traffic i) := by
  unfold generate
  refine (keeps_ofExcept _).bind fun q _ => ?_
  split
  · refine (h.uniform a).bind fun u _ => ?_
    split
    · exact h.update (Mac.routine_request .null (.int 0)) i a
    · exact keeps_pure trivial
  · exact keeps_pure trivial

theorem keeps_transmitters (traffic : Except Fault α) (slot : Datum) (hrest : rest ⊆ ids) :
    Keeps (env.macs.Accounted accounts ids ks a) (fun sent => ∀ e ∈ sent, e.1 ∈ ids)
      (transmitters env traffic slot rest) := by
  induction rest with
  | nil => exact keeps_pure fun e he => absurd he List.not_mem_nil
  | cons i rest ih =>
    rw [List.cons_subset] at hrest
    unfold transmitters
    refine (keeps_read hrest.1).bind fun m _ => ?_
    refine (keeps_ofExcept _).bind fun channel _ => ?_
    cases channel with
    | none => exact ih hrest.2
    | some c =>
      refine (keeps_generate h traffic i).bind fun _ _ => ?_
      refine (h.update Mac.routine_popFrame i a).bind fun frame _ => ?_
      refine (ih hrest.2).bind fun others hothers => keeps_pure ?_
      split
      · exact List.forall_mem_cons.2 ⟨hrest.1, hothers⟩
      · exact hothers

omit [Arith α] in
theorem keeps_deliverOverheard (slot : Datum) (senders : List Nat) (hrest : rest ⊆ ids) :
    Keeps (env.macs.Accounted accounts ids ks a) (fun _ => True)
      (deliverOverheard env slot senders rest) := by
  induction rest with
  | nil => exact keeps_pure trivial
  | cons i rest ih =>
    rw [List.cons_subset] at hrest
    unfold deliverOverheard
    refine (keeps_read hrest.1).bind fun m hm => ?_
    obtain ⟨k, hk, hsink⟩ := hm
    rw [hsink]
    dsimp only
    split
    · exact (h.overheard a k hk slot).bind fun _ _ => ih hrest.2
    · exact ih hrest.2

theorem keeps_statusOf (net : Network Nat ο α) (slot : Datum) (sender : String) (channel : Int)
    (rivals : Nat) :
    Keeps (env.macs.Accounted accounts ids ks a) (fun _ => True)
      (statusOf env net slot sender channel rivals) := by
  unfold statusOf Interference.disturbed
  split
  · exact (keeps_note (h.note a) _).bind fun _ _ => keeps_pure trivial
  · refine Keeps.bind (R := fun _ => True) ?_ fun failed _ => ?_
    · refine (h.uniform a).bind fun u _ => ?_
      exact (keeps_ofExcept _).bind fun q _ => keeps_pure trivial
    · split
      · exact keeps_pure trivial
      · exact keeps_pure trivial

/-! ### What changes them -/

omit [Arith α] in
/-- The record of a transmission goes to the statistics once. -/
theorem meets_trigger [DecidableEq ο] {observers : Notifier ο}
    (hbook : observers.callees.count book = 1) (label : Datum) (r : TransmissionRecord Nat) {s : σ}
    (hs : env.macs.Accounted accounts ids ks a s) :
    Meets True (observers.trigger label (env.observe · r)) s fun _ t => ∃ device,
      env.macs.Accounted accounts ids ks
        { a with book := a.book.count device r.senderName r.channel r.success } t := by
  have hmem : book ∈ observers.callees := List.count_pos_iff.1 (hbook ▸ Nat.one_pos)
  obtain ⟨before, after, hsplit, hbefore⟩ := List.eq_append_cons_of_mem hmem
  have hafter : book ∉ after := by
    rw [hsplit, List.count_append, List.count_cons_self] at hbook
    exact List.count_eq_zero.1 (by omega)
  have hothers : ∀ {row : List ο} {b : Accounts κ}, book ∉ row →
      Keeps (env.macs.Accounted accounts ids ks b) (fun _ => True)
        (forM row (env.observe · r)) := by
    intro row b hout
    rw [← List.forM_eq_forM]
    exact keeps_forM fun o ho => h.aside _ o (ne_of_mem_of_not_mem ho hout) r
  unfold Notifier.trigger
  rw [meets_bind]
  refine ((keeps_note (h.note a) _).meets hs).mono ?_
  rintro _ t ⟨-, ht⟩
  rw [hsplit, List.forM_eq_forM, List.forM_append, meets_bind]
  refine ((hothers hbefore).meets ht).mono ?_
  rintro _ u ⟨-, hu⟩
  rw [List.forM_cons, meets_bind]
  refine (h.record a r u hu).mono ?_
  rintro _ v ⟨device, hv⟩
  refine ((hothers hafter).meets hv).mono ?_
  rintro _ w ⟨-, hw⟩
  exact ⟨device, hw⟩

variable [DecidableEq ο] {net : Network Nat ο α} (hks : ks.Nodup)
  (hbook : net.observers.callees.count book = 1)

include hks hbook

/-- Once a transmission is confirmed, sinks and statistics agree again. -/
theorem meets_confirm (slot : Datum) (all : List (Nat × Int)) {sent : List (Nat × Int)}
    (hsent : ∀ e ∈ sent, e.1 ∈ ids) {s : σ} (hs : env.macs.Accounted accounts ids ks a s)
    (ha : a.Balanced ks) :
    Meets True (confirm env net slot all sent) s fun _ t =>
      ∃ b, env.macs.Accounted accounts ids ks b t ∧ b.Balanced ks := by
  induction sent generalizing a s with
  | nil => exact ⟨a, hs, ha⟩
  | cons e sent ih =>
    obtain ⟨i, channel⟩ := e
    rw [List.forall_mem_cons] at hsent
    unfold confirm
    rw [meets_bind]
    refine ((keeps_read hsent.1).meets hs).mono ?_
    rintro m t ⟨⟨k, hk, hsink⟩, ht⟩
    rw [meets_bind]
    refine ((keeps_statusOf h net slot _ channel _).meets ht).mono ?_
    rintro status u ⟨-, hu⟩
    rw [hsink]
    dsimp only
    rw [meets_bind]
    refine (h.outcome a k hk _ _ _ u hu).mono ?_
    rintro _ v ⟨b, htold, hv⟩
    rw [meets_bind]
    refine (meets_trigger h hbook _ _ hv).mono ?_
    rintro _ w ⟨device, hw⟩
    exact ih hsent.2 hw (ha.count hks hk htold device _ _)

theorem meets_runSlot [DecidableEq κ] (hids : net.macs = ids) {s : σ}
    (hs : env.macs.Accounted accounts ids ks a s) (ha : a.Balanced ks) :
    Meets True (runSlot env net) s fun net' t =>
      net' = { net with asn := net.asn + 1 } ∧
      ∃ b, env.macs.Accounted accounts ids ks b t ∧ b.Balanced ks := by
  unfold runSlot
  rw [hids, meets_bind]
  refine meets_ofExcept_of (.inr trivial) fun slot _ => ?_
  rw [meets_bind]
  refine ((keeps_announce h net.asn).meets hs).mono ?_
  rintro _ s ⟨-, hs⟩
  rw [meets_bind]
  refine ((keeps_sinksOf (List.Subset.refl ids)).meets hs).mono ?_
  rintro sinks s ⟨hsinks, hs⟩
  rw [meets_bind]
  have hdups : sinks.eraseDups ⊆ ks := fun k hk => hsinks (List.mem_eraseDups.1 hk)
  refine ((keeps_deliverBoundary h net.asn hdups).meets hs).mono ?_
  rintro _ s ⟨-, hs⟩
  rw [meets_bind]
  refine ((keeps_transmitters h net.traffic slot (List.Subset.refl ids)).meets hs).mono ?_
  rintro sent s ⟨hsent, hs⟩
  rw [meets_bind]
  refine (meets_confirm h hks hbook slot sent hsent hs ha).mono ?_
  rintro _ s ⟨b, hs, hb⟩
  dsimp only
  split
  · rw [meets_bind]
    refine ((keeps_deliverOverheard h slot _ (List.Subset.refl ids)).meets hs).mono ?_
    rintro _ s ⟨-, hs⟩
    exact ⟨rfl, b, hs, hb⟩
  · exact ⟨rfl, b, hs, hb⟩

theorem meets_runSlots [DecidableEq κ] (hids : net.macs = ids) (n : Nat) {s : σ}
    (hs : env.macs.Accounted accounts ids ks a s) (ha : a.Balanced ks) :
    Meets True (runSlots env n) (net, s) fun _ p =>
      p.1 = { net with asn := net.asn + n } ∧
      ∃ b, env.macs.Accounted accounts ids ks b p.2 ∧ b.Balanced ks := by
  induction n generalizing net a s with
  | zero => exact ⟨rfl, a, hs, ha⟩
  | succ n ih =>
    unfold runSlots advance
    simp only [bind_assoc, meets_bind, meets_part, meets_outside, meets_change]
    refine (meets_runSlot h hks hbook hids hs ha).mono ?_
    rintro _ t ⟨rfl, b, ht, hb⟩
    rw [Nat.add_comm n 1, ← Nat.add_assoc]
    have hnext : { net with asn := net.asn + 1 }.observers.callees.count book = 1 := hbook
    exact ih hnext hids ht hb

end Slot

end Network
end TschLearning
