import TschLearning.Proofs.Scenario.Events
import TschLearning.Proofs.Scenario.Paced
import TschLearning.Proofs.Statistics

/-! What is counted of a device that may transmit in every slot. The scheduler counts requests, the
statistics count transmissions, and the difference is what is in the queue. What the scheduler takes
for delay are the slots that successes were confirmed in. -/

namespace TschLearning

namespace Stage

/-- Frames that were sent and that the statistics do not know of yet. -/
def unrecorded : Stage → Nat
  | .sent _ | .told .. => 1
  | _ => 0

/-- Frames that have arrived and that the statistics do not know of yet. -/
def unrecordedSuccess : Stage → Nat
  | .told _ true => 1
  | _ => 0

end Stage

namespace Star

open SlotSelection

variable {ρ : Type} {slots i m asn : Nat} {x y : Stage} {left : List (Nat × Frame)}
  {mac mac' : Mac Nat} {a b : SlotSelection Nat Float}

def senderKey (i : Nat) : DeviceName := .text (senderName i)

theorem senderKey_injective : Function.Injective senderKey := by
  intro i j h
  have hrepr : Nat.repr (i + 2) = Nat.repr (j + 2) :=
    (String.append_right_inj _).1 (DeviceName.text.inj h)
  exact Nat.add_right_cancel (Nat.repr_inj.1 hrepr)

/-- What happens to other devices is not counted for a device. -/
theorem attempts_count_of_ne (him : i ≠ m) (statistics : Statistics) (spelling : Datum)
    (channel : Int) (success : Bool) :
    (statistics.count (senderKey m) spelling channel success).attempts.count (senderKey i)
      = statistics.attempts.count (senderKey i) := by
  rw [Statistics.attempts_count, if_neg (senderKey_injective.ne him), Nat.add_zero]

theorem successes_count_of_ne (him : i ≠ m) (statistics : Statistics) (spelling : Datum)
    (channel : Int) (success : Bool) :
    (statistics.count (senderKey m) spelling channel success).successes.count (senderKey i)
      = statistics.successes.count (senderKey i) := by
  rw [Statistics.successes_count, if_neg (senderKey_injective.ne him), Nat.add_zero]

/-- The outcomes that a scheduler was told of. -/
def outcomes (k : Nat) (trace : List (Event ρ Float)) : Nat :=
  trace.countP (·.delivery.Tells k)

/-- The slots in which a scheduler was told of successes, summed up. -/
def slotsConfirmed (k : Nat) (trace : List (Event ρ Float)) : Int :=
  overSuccesses k (fun e => e.delivery.slot) trace

/-- An outcome comes in the slot that the scheduler has chosen, and it is that of a frame that was
requested at the start of the slotframe. -/
def Punctual (slots i : Nat) (e : Event ρ Float) : Prop :=
  e.delivery.Tells i → ∃ mac a g asn f,
    e.before.2.macs[i]? = some mac ∧ e.before.2.schedulers[i]? = some (a, g) ∧
    mac.asn = some asn ∧ e.delivery.slot = a.action ∧ a.action = (asn % slots : Nat) ∧
    e.before.1.lookup i = some f ∧ f.asn = some (startOf slots asn)

/-- What a scheduler has counted, what the statistics say of its device, and what was delivered. -/
structure Counted (slots i : Nat) (x : Stage) (statistics : Statistics)
    (trace : List (Event ρ Float)) (mac : Mac Nat) (a : SlotSelection Nat Float) : Prop where
  attempts_eq : a.attempts
    = statistics.attempts.count (senderKey i) + mac.queue.length + x.unrecorded
  outcomes_eq : a.attempts = outcomes i trace + mac.queue.length + x.isSent.toNat
  successes_eq : a.successes = statistics.successes.count (senderKey i) + x.unrecordedSuccess
  count_le : statistics.successes.count (senderKey i) ≤ statistics.attempts.count (senderKey i)
  delay_eq : (a.delay : Int) = slotsConfirmed i trace
  delay_le : a.delay ≤ (slots - 1) * a.successes
  punctual : ∀ e ∈ trace, Punctual slots i e

namespace Counted

variable {statistics statistics' : Statistics} {trace : List (Event ρ Float)}

theorem kin (h : Counted slots i x statistics trace mac a) (hab : a.Kin b) :
    Counted slots i x statistics trace mac b := by
  obtain ⟨table, peaking, epsilon, activation, rfl, -⟩ := hab
  exact { h with }

/-- Frames are neither lost nor made. -/
theorem turn (h : Counted slots i x statistics trace mac a)
    (hrecord : mac'.queue.length + y.unrecorded = mac.queue.length + x.unrecorded)
    (houtcome : mac'.queue.length + y.isSent.toNat = mac.queue.length + x.isSent.toNat)
    (hsuccess : y.unrecordedSuccess = x.unrecordedSuccess) :
    Counted slots i y statistics trace mac' a :=
  { h with
    attempts_eq := by rw [h.attempts_eq, Nat.add_assoc, ← hrecord, Nat.add_assoc]
    outcomes_eq := by rw [h.outcomes_eq, Nat.add_assoc, ← houtcome, Nat.add_assoc]
    successes_eq := by rw [h.successes_eq, hsuccess] }

theorem of_counts (h : Counted slots i x statistics trace mac a)
    (hattempts : statistics'.attempts.count (senderKey i) = statistics.attempts.count (senderKey i))
    (hsuccesses :
      statistics'.successes.count (senderKey i) = statistics.successes.count (senderKey i)) :
    Counted slots i x statistics' trace mac a :=
  { h with
    attempts_eq := hattempts ▸ h.attempts_eq
    successes_eq := hsuccesses ▸ h.successes_eq
    count_le := by
      rw [hattempts, hsuccesses]
      exact h.count_le }

theorem extend (h : Counted slots i x statistics trace mac a) {d : List (Event ρ Float)}
    (hd : ∀ e ∈ d, ¬e.delivery.Tells i) : Counted slots i x statistics (trace ++ d) mac a :=
  { h with
    outcomes_eq := by
      have hnone : d.countP (·.delivery.Tells i) = 0 := by
        rw [List.countP_eq_zero]
        exact fun e he => by simpa using hd e he
      rw [outcomes, List.countP_append, hnone]
      exact h.outcomes_eq
    delay_eq := by
      rw [slotsConfirmed, overSuccesses_append _ trace fun e he hc => hd e he hc.tells]
      exact h.delay_eq
    punctual := fun e he =>
      (List.mem_append.1 he).elim (h.punctual e) fun he ht => absurd ht (hd e he) }

theorem begin (h : Counted slots i .announced statistics trace mac a)
    (hb : Begins slots asn mac a mac' b) : Counted slots i .begun statistics trace mac' b := by
  cases hb with
  | within hasn hkin =>
    refine kin ?_ hkin
    exact { h with }
  | start hasn hkin =>
    refine kin ?_ hkin
    exact { h with }
  | request hasn hlink hkin =>
    have hattempts := h.attempts_eq
    have houtcomes := h.outcomes_eq
    refine kin ?_ hkin
    refine { h with attempts_eq := ?_, outcomes_eq := ?_ }
    · show a.attempts + 1 = _ + (mac.queue ++ _).length + 0
      rw [List.length_append, List.length_singleton, hattempts]
      rfl
    · show a.attempts + 1 = _ + (mac.queue ++ _).length + 0
      rw [List.length_append, List.length_singleton, houtcomes]
      rfl

theorem settle {channel : Int} {success : Bool} {s : Star ρ Float} {w : Watched ρ Float} {g : ρ}
    (h : Counted slots i (.sent channel) statistics trace mac a)
    (hp : Paced slots i asn (.sent channel) left mac a) (hpos : 0 < slots)
    (hmac : s.macs[i]? = some mac) (hi : s.schedulers[i]? = some (a, g)) :
    Counted slots i (.told channel success) statistics
      (trace ++ [⟨.outcome i (.int (asn % slots : Nat)) channel success, (left, s), w⟩]) mac
      (a.counting success) := by
  have hattempts := h.attempts_eq
  have houtcomes := h.outcomes_eq
  have hsuccesses := h.successes_eq
  have hdelay := h.delay_eq
  -- the frame was requested at the start of the slotframe, so it has waited as many slots as lie
  -- before this one
  rw [hp.counting_eq success]
  refine ⟨hattempts, ?_, ?_, h.count_le, ?_, ?_, ?_⟩
  · have hone : List.countP (fun e : Event ρ Float => decide (e.delivery.Tells i))
        [⟨.outcome i (.int (asn % slots : Nat)) channel success, (left, s), w⟩] = 1 := by
      rw [List.countP_singleton]
      exact if_pos (decide_eq_true rfl)
    show a.attempts = _
    rw [houtcomes, outcomes, outcomes, List.countP_append, hone]
    show _ + _ + 1 = _ + 1 + _ + 0
    omega
  · show a.successes + _ = _
    rw [hsuccesses]
    cases success <;> rfl
  · have hconfirms : (Delivery.outcome i (.int (asn % slots : Nat)) channel success :
        Delivery Nat Nat Unit).Confirms i ↔ success = true :=
      ⟨fun h => h.2, fun h => ⟨rfl, h⟩⟩
    rw [slotsConfirmed, overSuccesses_concat, ← slotsConfirmed, ← hdelay]
    simp only [hconfirms, Delivery.slot]
    cases success <;> simp
  · have hle : asn % slots ≤ slots - 1 := Nat.le_sub_one_of_lt (Nat.mod_lt asn hpos)
    show a.delay + _ ≤ (slots - 1) * (a.successes + _)
    rw [Nat.mul_add]
    refine Nat.add_le_add h.delay_le ?_
    cases success with
    | false => exact Nat.zero_le _
    | true => rwa [if_pos rfl, Bool.toNat_true, Nat.mul_one]
  · intro e he
    rcases List.mem_append.1 he with he | he
    · exact h.punctual e he
    · obtain rfl := List.mem_singleton.1 he
      obtain ⟨-, -, haction, f, hf, hasn, -⟩ := hp.flight channel rfl
      exact fun _ => ⟨mac, a, g, asn, f, hmac, hi, hp.known rfl, haction, haction.symm, hf, hasn⟩

theorem record {channel : Int} {success : Bool}
    (h : Counted slots i (.told channel success) statistics trace mac a) (spelling : Datum) :
    Counted slots i .over (statistics.count (senderKey i) spelling channel success) trace mac
      a := by
  have hattempts := h.attempts_eq
  have hsuccesses := h.successes_eq
  have hle := h.count_le
  have hattempts' := statistics.attempts_count (senderKey i) spelling channel success (senderKey i)
  have hsuccesses' := statistics.successes_count (senderKey i) spelling channel success (senderKey i)
  have hone := success.toNat_le
  rw [if_pos rfl] at hattempts' hsuccesses'
  refine { h with attempts_eq := ?_, successes_eq := ?_, count_le := ?_ }
  · rw [hattempts, hattempts']
    show _ + _ + 1 = _ + 1 + _ + 0
    omega
  · rw [hsuccesses, hsuccesses']
    cases success <;> rfl
  · omega

end Counted
end Star
end TschLearning
