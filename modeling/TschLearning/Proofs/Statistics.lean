import Mathlib.Algebra.GroupWithZero.Nat
import Mathlib.Data.List.Nodup
import TschLearning.Statistics

/-! Transmission statistics are coherent: counted by device and counted by channel, transmissions
come to the same sum, and nothing has more successes than attempts. -/

namespace TschLearning

/-- Two sums over a row without repetitions that differ in one place only. -/
theorem sum_map_add_of_ne {κ : Type} {row : List κ} (hrow : row.Nodup) {k : κ} (hk : k ∈ row)
    {f g : κ → Nat} (h : ∀ j ∈ row, j ≠ k → g j = f j) :
    (row.map g).sum + f k = (row.map f).sum + g k := by
  obtain ⟨l, r, rfl⟩ := List.mem_iff_append.1 hk
  have hout : k ∉ l ++ r := (List.nodup_cons.1 (List.nodup_middle.1 hrow)).1
  have hsame : ∀ j ∈ l ++ r, g j = f j := by
    intro j hj
    refine h j ?_ (ne_of_mem_of_not_mem hj hout)
    rw [List.mem_append] at hj ⊢
    exact hj.imp_right (List.mem_cons_of_mem k)
  have hleft := List.map_congr_left fun j hj => hsame j (List.mem_append_left r hj)
  have hright := List.map_congr_left fun j hj => hsame j (List.mem_append_right l hj)
  simp only [List.map_append, List.map_cons, List.sum_append, List.sum_cons, hleft, hright]
  omega

namespace Tally

variable {κ : Type} [DecidableEq κ] {t : Tally κ}

omit [DecidableEq κ] in
def keys (t : Tally κ) : List κ := t.entries.map Prod.fst

/-- Every key stands there once, and with a count above zero. -/
structure Proper (t : Tally κ) : Prop where
  nodup : t.keys.Nodup
  positive : ∀ e ∈ t.entries, 0 < e.2

theorem count_cons (e : κ × Nat) (rest : List (κ × Nat)) (k : κ) :
    (Tally.mk (e :: rest)).count k = if k = e.1 then e.2 else (Tally.mk rest).count k := by
  obtain ⟨j, n⟩ := e
  simp only [count, lookup_cons_ite]
  split <;> rfl

omit [DecidableEq κ] in
theorem proper_cons {e : κ × Nat} {rest : List (κ × Nat)} :
    (Tally.mk (e :: rest)).Proper ↔
      e.1 ∉ (Tally.mk rest).keys ∧ 0 < e.2 ∧ (Tally.mk rest).Proper := by
  constructor
  · rintro ⟨hnodup, hpositive⟩
    rw [List.forall_mem_cons] at hpositive
    obtain ⟨hnew, hrest⟩ := List.nodup_cons.1 hnodup
    exact ⟨hnew, hpositive.1, hrest, hpositive.2⟩
  · rintro ⟨hnew, he, hrest⟩
    exact ⟨List.nodup_cons.2 ⟨hnew, hrest.nodup⟩, List.forall_mem_cons.2 ⟨he, hrest.positive⟩⟩

omit [DecidableEq κ] in
theorem proper_empty : (empty : Tally κ).Proper :=
  ⟨List.nodup_nil, fun _ he => absurd he List.not_mem_nil⟩

theorem count_eq_zero_of_not_mem {k : κ} (h : k ∉ t.keys) : t.count k = 0 := by
  obtain ⟨entries⟩ := t
  induction entries with
  | nil => rfl
  | cons e rest ih =>
    obtain ⟨hne, hrest⟩ := List.ne_and_not_mem_of_not_mem_cons h
    rw [count_cons, if_neg hne]
    exact ih hrest

theorem Proper.count_pos (h : t.Proper) {k : κ} : 0 < t.count k ↔ k ∈ t.keys := by
  refine ⟨fun hpos => ?_, fun hk => ?_⟩
  · by_contra hk
    rw [count_eq_zero_of_not_mem hk] at hpos
    exact Nat.lt_irrefl 0 hpos
  · obtain ⟨entries⟩ := t
    induction entries with
    | nil => exact absurd hk List.not_mem_nil
    | cons e rest ih =>
      obtain ⟨-, he, hrest⟩ := proper_cons.1 h
      rw [count_cons]
      split
      · exact he
      · exact ih hrest ((List.mem_cons.1 hk).resolve_left (by assumption))

theorem keys_bump (t : Tally κ) (k : κ) :
    (t.bump k).keys = if k ∈ t.keys then t.keys else t.keys ++ [k] := by
  obtain ⟨entries⟩ := t
  induction entries with
  | nil => rfl
  | cons e rest ih =>
    have hkeys : (Tally.mk (e :: rest)).keys = e.1 :: (Tally.mk rest).keys := rfl
    simp only [bump, bumpIn, hkeys, List.mem_cons]
    by_cases he : e.1 = k
    · rw [if_pos he, if_pos (.inl he.symm), he]
      rfl
    · simp only [if_neg he, Ne.symm he, false_or]
      show e.1 :: ((Tally.mk rest).bump k).keys = _
      rw [ih]
      split <;> rfl

theorem Proper.bump (h : t.Proper) (k : κ) : (t.bump k).Proper where
  nodup := by
    rw [keys_bump]
    split
    · exact h.nodup
    · rename_i hk
      refine List.nodup_append.2 ⟨h.nodup, List.nodup_singleton k, fun a ha b hb he => ?_⟩
      rw [he, List.mem_singleton.1 hb] at ha
      exact hk ha
  positive := by
    obtain ⟨entries⟩ := t
    simp only [Tally.bump]
    induction entries with
    | nil => simp [bumpIn]
    | cons e rest ih =>
      obtain ⟨-, he, hrest⟩ := proper_cons.1 h
      unfold bumpIn
      split
      · exact List.forall_mem_cons.2 ⟨Nat.succ_pos _, hrest.positive⟩
      · exact List.forall_mem_cons.2 ⟨he, ih hrest⟩

omit [DecidableEq κ] in
theorem total_eq_sum (t : Tally κ) : t.total = (t.entries.map Prod.snd).sum := by
  rw [List.sum_eq_foldr, List.foldr_map]
  rfl

/-- The counts of a row of keys with all those that were counted come to the sum of all counts. -/
theorem Proper.sum_count (h : t.Proper) {row : List κ} (hrow : row.Nodup)
    (hcover : ∀ k ∈ t.keys, k ∈ row) : (row.map t.count).sum = t.total := by
  obtain ⟨entries⟩ := t
  induction entries with
  | nil =>
    refine List.sum_eq_zero_iff_forall_eq_nat.2 fun n hn => ?_
    obtain ⟨k, -, rfl⟩ := List.mem_map.1 hn
    rfl
  | cons e rest ih =>
    obtain ⟨hnew, -, hrest⟩ := proper_cons.1 h
    have hkeys : (Tally.mk (e :: rest)).keys = e.1 :: (Tally.mk rest).keys := rfl
    rw [hkeys, List.forall_mem_cons] at hcover
    have hsum := ih hrest hcover.2
    -- elsewhere in the row the first entry does not count
    have hsplit := sum_map_add_of_ne hrow hcover.1 (f := (Tally.mk rest).count)
      (g := (Tally.mk (e :: rest)).count) fun k _ hk => by rw [count_cons, if_neg hk]
    rw [hsum, count_eq_zero_of_not_mem hnew, count_cons, if_pos rfl] at hsplit
    exact hsplit.trans (Nat.add_comm _ _)

end Tally

/-! ### Names and their spellings -/

namespace Roster

variable {r : Roster} {name : DeviceName}

def spelled (r : Roster) : List DeviceName := r.spellings.map Prod.fst

theorem spelled_spell (r : Roster) (name : DeviceName) (spelling : Datum) :
    (r.spell name spelling).spelled
      = if name ∈ r.spelled then r.spelled else r.spelled ++ [name] := by
  have hknown : (r.spellings.lookup name).isSome = true ↔ name ∈ r.spelled := by
    rw [List.lookup_isSome_iff, spelled, List.mem_map]
    exact exists_congr fun e => and_congr_right fun _ => beq_iff_eq.trans eq_comm
  unfold spell
  by_cases h : name ∈ r.spelled
  · rw [if_pos (hknown.2 h), if_pos h]
  · rw [if_neg (mt hknown.1 h), if_neg h, spelled, spelled, List.map_append]
    rfl

theorem counts_spell (r : Roster) (name : DeviceName) (spelling : Datum) :
    (r.spell name spelling).counts = r.counts := by
  unfold spell
  split <;> rfl

theorem counts_foldl_spell (r : Roster) (names : List (DeviceName × Datum)) :
    (names.foldl (fun r e => r.spell e.1 e.2) r).counts = r.counts := by
  induction names generalizing r with
  | nil => rfl
  | cons e rest ih => rw [List.foldl_cons, ih, counts_spell]

end Roster

/-! ### Statistics -/

namespace Statistics

variable {s : Statistics}

/-- Counts that are kept together: every name that was counted is spelled, and whatever counts as a
success counts as an attempt, too. -/
structure Proper (s : Statistics) : Prop where
  attempts : s.attempts.counts.Proper
  successes : s.successes.counts.Proper
  channelAttempts : s.channelAttempts.Proper
  channelSuccesses : s.channelSuccesses.Proper
  spelled : s.attempts.spelled = s.attempts.counts.keys
  device_le : ∀ name, s.successes.count name ≤ s.attempts.count name
  channel_le : ∀ c, s.channelSuccesses.count c ≤ s.channelAttempts.count c
  attempts_eq : s.channelAttempts.total = s.totalAttempts
  successes_eq : s.channelSuccesses.total = s.totalSuccesses

theorem proper_empty : empty.Proper where
  attempts := Tally.proper_empty
  successes := Tally.proper_empty
  channelAttempts := Tally.proper_empty
  channelSuccesses := Tally.proper_empty
  spelled := rfl
  device_le _ := Nat.le_refl 0
  channel_le _ := Nat.le_refl 0
  attempts_eq := rfl
  successes_eq := rfl

/-! What one transmission adds to the counts. -/

section Count

variable (s : Statistics) (device : DeviceName) (spelling : Datum) (channel : Int) (success : Bool)

theorem attempts_count (name : DeviceName) :
    (s.count device spelling channel success).attempts.count name
      = s.attempts.count name + if name = device then 1 else 0 := by
  show (s.attempts.bump device spelling).count name = _
  rw [Roster.count_bump]
  split
  · rename_i h
    rw [h]
  · rfl

theorem successes_count (name : DeviceName) :
    (s.count device spelling channel success).successes.count name
      = s.successes.count name + if name = device then success.toNat else 0 := by
  cases success with
  | false => exact (ite_self 0).symm ▸ rfl
  | true =>
    show (s.successes.bump device spelling).count name = _
    rw [Roster.count_bump]
    split
    · rename_i h
      rw [h]
      rfl
    · rfl

theorem channelAttempts_count (c : Int) :
    (s.count device spelling channel success).channelAttempts.count c
      = s.channelAttempts.count c + if c = channel then 1 else 0 := by
  show (s.channelAttempts.bump channel).count c = _
  rw [Tally.count_bump]
  split
  · rename_i h
    rw [h]
  · rfl

theorem channelSuccesses_count (c : Int) :
    (s.count device spelling channel success).channelSuccesses.count c
      = s.channelSuccesses.count c + if c = channel then success.toNat else 0 := by
  cases success with
  | false => exact (ite_self 0).symm ▸ rfl
  | true =>
    show (s.channelSuccesses.bump channel).count c = _
    rw [Tally.count_bump]
    split
    · rename_i h
      rw [h]
      rfl
    · rfl

theorem totalAttempts_count :
    (s.count device spelling channel success).totalAttempts = s.totalAttempts + 1 :=
  Roster.total_bump s.attempts device spelling

theorem totalSuccesses_count :
    (s.count device spelling channel success).totalSuccesses
      = s.totalSuccesses + success.toNat := by
  cases success with
  | false => rfl
  | true => exact Roster.total_bump s.successes device spelling

theorem total_channelSuccesses_count :
    (s.count device spelling channel success).channelSuccesses.total
      = s.channelSuccesses.total + success.toNat := by
  cases success with
  | false => rfl
  | true => exact Tally.total_bump s.channelSuccesses channel

end Count

/-- What the statistics are after a record: the same with one more transmission. -/
theorem add_eq_ok {r : TransmissionRecord Nat} {s' : Statistics} (h : s.add r = .ok s') :
    ∃ device, s' = s.count device r.senderName r.channel r.success := by
  unfold add at h
  split at h
  · rename_i device _
    cases h
    exact ⟨device, rfl⟩
  · cases h

theorem Proper.count (h : s.Proper) (device : DeviceName) (spelling : Datum) (channel : Int)
    (success : Bool) : (s.count device spelling channel success).Proper where
  attempts := h.attempts.bump device
  successes := by
    cases success with
    | false => exact h.successes
    | true => exact h.successes.bump device
  channelAttempts := h.channelAttempts.bump channel
  channelSuccesses := by
    cases success with
    | false => exact h.channelSuccesses
    | true => exact h.channelSuccesses.bump channel
  spelled := by
    show (s.attempts.spell device spelling).spelled = (s.attempts.counts.bump device).keys
    rw [Roster.spelled_spell, Tally.keys_bump, h.spelled]
  device_le name := by
    have hle := h.device_le name
    have hone := success.toNat_le
    rw [attempts_count, successes_count]
    split <;> omega
  channel_le c := by
    have hle := h.channel_le c
    have hone := success.toNat_le
    rw [channelAttempts_count, channelSuccesses_count]
    split <;> omega
  attempts_eq := by
    show (s.channelAttempts.bump channel).total = _
    rw [Tally.total_bump, totalAttempts_count, h.attempts_eq]
  successes_eq := by rw [total_channelSuccesses_count, totalSuccesses_count, h.successes_eq]

/-- The same transmissions by device and by channel: the sums are those of all transmissions,
nothing has more successes than attempts, and what is listed at all has attempts to divide by. The
rates of channels are quotients without exception. -/
structure Coherent (s : Statistics) : Prop where
  device_attempts : (s.byDevice.map fun e => e.2.2).sum = s.totalAttempts
  device_successes : (s.byDevice.map fun e => e.2.1).sum = s.totalSuccesses
  channel_attempts : (s.byChannel.map fun e => e.2.2).sum = s.totalAttempts
  channel_successes : (s.byChannel.map fun e => e.2.1).sum = s.totalSuccesses
  channelAttempts_total : s.channelAttempts.total = s.totalAttempts
  channelSuccesses_total : s.channelSuccesses.total = s.totalSuccesses
  device_le : ∀ name, s.successes.count name ≤ s.attempts.count name
  channel_le : ∀ c, s.channelSuccesses.count c ≤ s.channelAttempts.count c
  device_pos : ∀ e ∈ s.byDevice, 0 < e.2.2
  channel_pos : ∀ e ∈ s.byChannel, 0 < e.2.2
  channel_rates : s.channelSuccessRates
    = s.byChannel.map fun e => (e.1, Binary64.quotient e.2.1 e.2.2)

theorem Proper.perm_names (h : s.Proper) :
    (s.attempts.names.map Prod.fst).Perm s.attempts.counts.keys := by
  rw [← h.spelled]
  exact (Ranking.perm_arrange _ _ _).map _

theorem perm_sorted (t : Tally Int) : ((t.sorted channelLe).map Prod.fst).Perm t.keys :=
  (List.mergeSort_perm _ _).map _

theorem Proper.channel_pos (h : s.Proper) : ∀ e ∈ s.byChannel, 0 < e.2.2 := by
  intro e he
  obtain ⟨n, hn, rfl⟩ := List.mem_map.1 he
  exact h.channelAttempts.positive n ((List.mergeSort_perm _ _).mem_iff.1 hn)

theorem Proper.coherent (h : s.Proper) : s.Coherent where
  device_attempts := by
    have hsum := h.attempts.sum_count (h.perm_names.nodup_iff.2 h.attempts.nodup)
      fun k hk => h.perm_names.mem_iff.2 hk
    rw [List.map_map] at hsum
    rw [byDevice, List.map_map]
    exact hsum
  device_successes := by
    have hsum := h.successes.sum_count (h.perm_names.nodup_iff.2 h.attempts.nodup) fun k hk =>
      h.perm_names.mem_iff.2 (h.attempts.count_pos.1
        (Nat.lt_of_lt_of_le (h.successes.count_pos.2 hk) (h.device_le k)))
    rw [List.map_map] at hsum
    rw [byDevice, List.map_map]
    exact hsum
  channel_attempts := by
    rw [byChannel, List.map_map, ← h.attempts_eq, Tally.total_eq_sum]
    exact ((List.mergeSort_perm _ _).map Prod.snd).sum_nat
  channel_successes := by
    have hsum := h.channelSuccesses.sum_count
      ((perm_sorted s.channelAttempts).nodup_iff.2 h.channelAttempts.nodup) fun k hk =>
      (perm_sorted _).mem_iff.2 (h.channelAttempts.count_pos.1
        (Nat.lt_of_lt_of_le (h.channelSuccesses.count_pos.2 hk) (h.channel_le k)))
    rw [List.map_map] at hsum
    rw [byChannel, List.map_map, ← h.successes_eq]
    exact hsum
  channelAttempts_total := h.attempts_eq
  channelSuccesses_total := h.successes_eq
  device_le := h.device_le
  channel_le := h.channel_le
  device_pos e he := by
    obtain ⟨n, hn, rfl⟩ := List.mem_map.1 he
    exact h.attempts.count_pos.2 (h.perm_names.mem_iff.1 (List.mem_map_of_mem hn))
  channel_pos := h.channel_pos
  channel_rates := List.map_congr_left fun e he => by
    rw [TschLearning.successRate, if_neg (Nat.ne_of_gt (h.channel_pos e he))]

/-- The same counts. A name or a channel that stands nowhere counts as zero. -/
structure SameCounts (s s' : Statistics) : Prop where
  attempts_eq : ∀ name, s'.attempts.count name = s.attempts.count name
  successes_eq : ∀ name, s'.successes.count name = s.successes.count name
  channelAttempts_eq : ∀ c, s'.channelAttempts.count c = s.channelAttempts.count c
  channelSuccesses_eq : ∀ c, s'.channelSuccesses.count c = s.channelSuccesses.count c
  totalAttempts_eq : s'.totalAttempts = s.totalAttempts
  totalSuccesses_eq : s'.totalSuccesses = s.totalSuccesses

theorem SameCounts.refl (s : Statistics) : s.SameCounts s :=
  ⟨fun _ => rfl, fun _ => rfl, fun _ => rfl, fun _ => rfl, rfl, rfl⟩

theorem SameCounts.trans {s₁ s₂ s₃ : Statistics} (h : s₁.SameCounts s₂) (h' : s₂.SameCounts s₃) :
    s₁.SameCounts s₃ where
  attempts_eq name := (h'.attempts_eq name).trans (h.attempts_eq name)
  successes_eq name := (h'.successes_eq name).trans (h.successes_eq name)
  channelAttempts_eq c := (h'.channelAttempts_eq c).trans (h.channelAttempts_eq c)
  channelSuccesses_eq c := (h'.channelSuccesses_eq c).trans (h.channelSuccesses_eq c)
  totalAttempts_eq := h'.totalAttempts_eq.trans h.totalAttempts_eq
  totalSuccesses_eq := h'.totalSuccesses_eq.trans h.totalSuccesses_eq

/-- Logging statistics changes no count. -/
theorem sameCounts_logged (s : Statistics) : s.SameCounts s.logged := by
  have hcounts : s.logged.successes.counts = s.successes.counts :=
    Roster.counts_foldl_spell s.successes s.attempts.names
  exact {
    attempts_eq := fun _ => rfl
    successes_eq := fun name => congrArg (·.count name) hcounts
    channelAttempts_eq := fun _ => rfl
    channelSuccesses_eq := fun _ => rfl
    totalAttempts_eq := rfl
    totalSuccesses_eq := congrArg Tally.total hcounts }

end Statistics
end TschLearning
