import TschLearning.Proofs.Exact
import TschLearning.Proofs.Scheduler.Happenings
import Mathlib.Algebra.BigOperators.Intervals
import Mathlib.Algebra.Order.BigOperators.Group.Finset

/-! Collision-peaking scores in exact arithmetic. They are kept by adding and by letting everything
decay, and are a sum over what was overheard: one for every time, less by the decay of every
slotframe that has started since. -/

namespace TschLearning

/-! ### The quietest slot -/

theorem Arith.undercuts_iff {x y : ℚ} : undercuts x y = true ↔ x < y := by
  simp [undercuts, le]

/-- The positions of the lowest of some numbers. -/
def lowest (n : Nat) (f : Nat → ℚ) : Set Nat := {i | i < n ∧ ∀ j < n, f i ≤ f j}

/-- The search goes on from the first of the lowest numbers so far. -/
theorem isLeast_bestPositionFrom {f : Nat → ℚ} (n : Nat) {position next : Nat}
    (h : IsLeast (lowest next f) position) :
    IsLeast (lowest (next + n) f) (bestPositionFrom Arith.undercuts (f position) position next
      ((List.range' next n).map f)) := by
  induction n generalizing position next with
  | zero => exact h
  | succ n ih =>
    obtain ⟨⟨hlt, hle⟩, hleast⟩ := h
    rw [List.range'_succ, List.map_cons, bestPositionFrom, ← Nat.add_assoc, Nat.add_right_comm]
    by_cases hbeats : f next < f position
    · rw [if_pos (Arith.undercuts_iff.2 hbeats)]
      refine ih ⟨⟨Nat.lt_succ_self next, fun j hj => ?_⟩, fun i ⟨hi, hmin⟩ => ?_⟩
      · rcases Nat.lt_succ_iff_lt_or_eq.1 hj with hj | rfl
        · exact hbeats.le.trans (hle j hj)
        · exact le_rfl
      · by_contra hnot
        exact absurd (hmin next (Nat.lt_succ_self next))
          (not_le.2 (hbeats.trans_le (hle i (Nat.not_le.1 hnot))))
    · rw [if_neg fun h => hbeats (Arith.undercuts_iff.1 h)]
      refine ih ⟨⟨Nat.lt_succ_of_lt hlt, fun j hj => ?_⟩, fun i ⟨hi, hmin⟩ => ?_⟩
      · rcases Nat.lt_succ_iff_lt_or_eq.1 hj with hj | rfl
        · exact hle j hj
        · exact not_lt.1 hbeats
      · rcases Nat.lt_succ_iff_lt_or_eq.1 hi with hi | rfl
        · exact hleast ⟨hi, fun j hj => hmin j (Nat.lt_succ_of_lt hj)⟩
        · exact hlt.le

theorem Datum.eq_int_of_isSlot {x : Datum} {slot : Nat} (h : x.isSlot slot = true) :
    x = .int slot := by
  cases x with
  | int i => exact congrArg Datum.int (of_decide_eq_true h)
  | _ => cases h

namespace PeakingTable

variable {n : Nat} {f : Nat → ℚ}

/-- The quietest slot is the first of those with the lowest score. -/
theorem isLeast_quietest (hpos : 0 < n) :
    IsLeast (lowest n f) (quietest ⟨(List.range n).map f⟩) := by
  obtain ⟨n, rfl⟩ := Nat.exists_eq_succ_of_ne_zero hpos.ne'
  have hfirst : IsLeast (lowest 1 f) 0 := by
    refine ⟨⟨Nat.one_pos, fun j hj => ?_⟩, fun i _ => Nat.zero_le i⟩
    rw [Nat.lt_one_iff.1 hj]
  have hlist : (List.range (n + 1)).map f = f 0 :: (List.range' 1 n).map f := by
    rw [List.range_eq_range', List.range'_succ, List.map_cons]
  have hleast := isLeast_bestPositionFrom n hfirst
  rw [Nat.add_comm] at hleast
  unfold quietest
  rw [hlist]
  exact hleast

/-! ### One change of the scores -/

theorem decay_range (sigma : ℚ) :
    decay ⟨(List.range n).map f⟩ sigma = ⟨(List.range n).map fun s => f s * sigma⟩ := by
  unfold decay
  rw [List.map_map]
  rfl

/-- Activity that is overheard adds one to the score of its slot, if it is one. -/
theorem raised_range (slot : Datum) :
    raised ⟨(List.range n).map f⟩ slot
      = ⟨(List.range n).map fun s => f s + if slot.isSlot s then 1 else 0⟩ := by
  unfold raised bump checkSlot slots
  rw [List.length_map, List.length_range]
  cases hcheck : checkIndex (possessive (label ⟨(List.range n).map f⟩)) "slot" n slot with
  | ok i =>
    obtain ⟨rfl, hi⟩ := checkIndex_eq_ok hcheck
    refine congrArg mk (List.ext_getElem (by simp) fun s hs _ => ?_)
    rw [List.getElem_modify]
    simp only [List.getElem_map, List.getElem_range, Datum.isSlot, Nat.cast_inj, decide_eq_true_iff]
    split
    · rfl
    · exact (add_zero _).symm
  | error e =>
    refine congrArg mk (List.map_congr_left fun s hs => ?_)
    have hno : slot.isSlot s = false := by
      by_contra hslot
      obtain rfl := Datum.eq_int_of_isSlot (Bool.not_eq_false _ ▸ hslot)
      rw [checkIndex_int_of_lt _ _ (Int.natCast_nonneg s) (Int.ofNat_lt.2 (List.mem_range.1 hs))]
        at hcheck
      cases hcheck
    rw [hno, if_neg Bool.false_ne_true, add_zero]

end PeakingTable

/-! ### The scores of a whole past -/

namespace Happening

variable {σ : Type} {slots : Nat}

def starts (slots : Nat) (events : List (Happening σ)) : Nat :=
  (accepted events).countP (· % slots = 0)

/-- The slotframes that have started since a happening. -/
def startsSince (slots : Nat) (events : List (Happening σ)) (k : Nat) : Nat :=
  starts slots events - starts slots (events.take k)

/-- The score of a slot: what was overheard in it, as it has decayed since. -/
def peak (sigma : ℚ) (slots : Nat) (events : List (Happening σ)) (slot : Nat) : ℚ :=
  ∑ k ∈ Finset.range events.length with (events[k]?).any (·.isHeardIn slot),
    sigma ^ startsSince slots events k

theorem starts_le_append (past later : List (Happening σ)) :
    starts slots past ≤ starts slots (past ++ later) :=
  (accepted_isPrefix past later).sublist.countP_le

theorem starts_take_le (events : List (Happening σ)) (k : Nat) :
    starts slots (events.take k) ≤ starts slots events := by
  have hle : starts slots (events.take k) ≤ starts slots (events.take k ++ events.drop k) :=
    starts_le_append _ _
  rwa [List.take_append_drop] at hle

/-- A happening lets the scores decay by the slotframes that it starts, and adds to the score of
the slot that it is overheard in. -/
theorem peak_concat (sigma : ℚ) (past : List (Happening σ)) (event : Happening σ) (slot : Nat) :
    peak sigma slots (past ++ [event]) slot
      = (peak sigma slots past slot + if event.isHeardIn slot then 1 else 0)
        * sigma ^ (starts slots (past ++ [event]) - starts slots past) := by
  have hterm : ∀ k ∈ Finset.range past.length,
      (if ((past ++ [event])[k]?).any (·.isHeardIn slot) then
          sigma ^ startsSince slots (past ++ [event]) k else 0)
        = (if (past[k]?).any (·.isHeardIn slot) then sigma ^ startsSince slots past k else 0)
          * sigma ^ (starts slots (past ++ [event]) - starts slots past) := by
    intro k hk
    have hlt := Finset.mem_range.1 hk
    have hsince : startsSince slots (past ++ [event]) k
        = startsSince slots past k + (starts slots (past ++ [event]) - starts slots past) := by
      have htake : starts slots (past.take k) ≤ starts slots past := starts_take_le past k
      have hmore : starts slots past ≤ starts slots (past ++ [event]) :=
        starts_le_append past [event]
      unfold startsSince
      rw [List.take_append_of_le_length hlt.le]
      omega
    rw [List.getElem?_append_left hlt, hsince, pow_add, ite_mul, zero_mul]
  have hlast : (if ((past ++ [event])[past.length]?).any (·.isHeardIn slot) then
        sigma ^ startsSince slots (past ++ [event]) past.length else 0)
      = (if event.isHeardIn slot then 1 else 0)
        * sigma ^ (starts slots (past ++ [event]) - starts slots past) := by
    rw [List.getElem?_concat_length, Option.any_some, ite_mul, zero_mul, one_mul]
    unfold startsSince
    rw [List.take_left]
  unfold peak
  rw [Finset.sum_filter, Finset.sum_filter, List.length_append, List.length_singleton,
    Finset.sum_range_succ, Finset.sum_congr rfl hterm, hlast, ← Finset.sum_mul, ← add_mul]

/-- A slotframe that starts lets the scores decay. -/
theorem peak_start (sigma : ℚ) {past : List (Happening σ)} {asn : Nat} {x : Datum}
    (h : Signal.later? (accepted past).getLast? x = some asn) (hstart : asn % slots = 0)
    (slot : Nat) :
    peak sigma slots (past ++ [.called (.boundary x)]) slot
      = peak sigma slots past slot * sigma := by
  have hstarts : starts slots (past ++ [.called (.boundary x)]) = starts slots past + 1 := by
    unfold starts
    rw [accepted_boundary, h, Option.toList_some, List.countP_append, List.countP_singleton,
      if_pos (decide_eq_true hstart)]
  rw [peak_concat, hstarts, Nat.add_sub_cancel_left, pow_one]
  exact congrArg (· * sigma) (add_zero _)

/-- Whatever starts no slotframe adds to the score of the slot that it is overheard in, and does
nothing to the others. -/
theorem peak_between (sigma : ℚ) {past : List (Happening σ)} {event : Happening σ}
    (h : starts slots (past ++ [event]) = starts slots past) (slot : Nat) :
    peak sigma slots (past ++ [event]) slot
      = peak sigma slots past slot + if event.isHeardIn slot then 1 else 0 := by
  rw [peak_concat, h, Nat.sub_self, pow_zero, mul_one]

theorem peak_eq_zero (sigma : ℚ) {events : List (Happening σ)} {slot : Nat}
    (h : ∀ event ∈ events, event.isHeardIn slot = false) : peak sigma slots events slot = 0 := by
  refine Finset.sum_eq_zero fun k hk => ?_
  obtain ⟨event, hevent, hheard⟩ := Option.any_eq_true _ _ |>.1 (Finset.mem_filter.1 hk).2
  rw [h event (List.mem_of_getElem? hevent)] at hheard
  cases hheard

/-- With a decay that leaves something, the score of a slot that activity was overheard in stays
above zero. -/
theorem peak_pos {sigma : ℚ} (hsigma : 0 < sigma) {events : List (Happening σ)} {slot : Nat}
    {event : Happening σ} (hmem : event ∈ events) (hheard : event.isHeardIn slot = true) :
    0 < peak sigma slots events slot := by
  obtain ⟨k, hk⟩ := List.mem_iff_getElem?.1 hmem
  refine Finset.sum_pos (fun _ _ => pow_pos hsigma _) ⟨k, Finset.mem_filter.2 ⟨?_, ?_⟩⟩
  · exact Finset.mem_range.2 (List.getElem?_eq_some_iff.1 hk).1
  · rw [hk]
    exact hheard

/-- A slot with the lowest score is one that nothing was overheard in, if there is such a slot. -/
theorem isHeardIn_eq_false_of_lowest {sigma : ℚ} (hsigma : 0 < sigma)
    {events : List (Happening σ)} {slot quiet : Nat}
    (hlowest : slot ∈ lowest slots (peak sigma slots events)) (hlt : quiet < slots)
    (hquiet : ∀ event ∈ events, event.isHeardIn quiet = false) :
    ∀ event ∈ events, event.isHeardIn slot = false := by
  intro event hmem
  by_contra hheard
  have hpos : 0 < peak sigma slots events slot :=
    peak_pos hsigma hmem (Bool.not_eq_false _ ▸ hheard)
  exact absurd (hlowest.2 quiet hlt) (not_le.2 ((peak_eq_zero sigma hquiet).trans_lt hpos))

end Happening
end TschLearning
