import TschLearning.Proofs.Action.Keeps
import TschLearning.Proofs.Scheduler.Steps

/-! The transmissions that a channel scheduler counts. Slot boundaries change neither count,
whatever becomes of the deployments that they lead to; an outcome raises the one by one, and the
other if it is a success. -/

namespace TschLearning

open TschLearning.Action

/-- A boundary that passes a gate changes nothing around it, but for notes. -/
theorem Settling.keeps_epochPassed {σ : Type} [Journal σ] {P : σ → Prop}
    (hnote : ∀ (n : Note) s, P s → P (Journal.enter n s)) (sender : Activation → String) :
    Keeps (fun p : Activation × σ => P p.2) (fun _ => True) (epochPassed sender) := by
  have hentry : ∀ note : Note,
      Keeps (fun p : Activation × σ => P p.2) (fun _ => True) (Action.note note) :=
    keeps_note fun note p hp => hnote note p.2 hp
  unfold epochPassed
  refine (keeps_part (Q := fun _ => True) fun _ _ _ => trivial).bind fun a _ => ?_
  split
  · exact keeps_pure trivial
  refine Keeps.bind (keeps_change fun a s hp => hp) fun _ _ => ?_
  refine (keeps_part (Q := fun _ => True) fun _ _ _ => trivial).bind fun a _ => ?_
  refine (hentry _).bind fun _ _ => ?_
  split
  · exact keeps_pure trivial
  refine Keeps.bind (keeps_change fun a s hp => hp) fun _ _ => ?_
  refine (keeps_part (Q := fun _ => True) fun _ _ _ => trivial).bind fun a _ => ?_
  exact (hentry _).bind fun _ _ => keeps_pure trivial

namespace ChannelHopping

variable {σ α : Type}

def counts (c : ChannelHopping α) : Nat × Nat := (c.attempts, c.successes)

/-- How a transmission is counted does not depend on what else the scheduler has. -/
theorem counts_counting {c d : ChannelHopping α} (h : c.counts = d.counts) (success : Bool) :
    (c.counting success).counts = (d.counting success).counts := by
  obtain ⟨hattempts, hsuccesses⟩ := Prod.mk.inj h
  simp only [counts, counting, hattempts, hsuccesses]

theorem counts_informed (c : ChannelHopping α) (slot channel : Nat) (success : Bool) :
    (c.informed slot channel success).counts = (c.counting success).counts := by
  unfold informed
  split <;> rfl

/-- The scheduler has counted so much, and an assertion about its surroundings holds. -/
def Counting (n : Nat × Nat) (P : σ → Prop) (p : ChannelHopping α × σ) : Prop :=
  p.1.counts = n ∧ P p.2

variable {P : σ → Prop} {n : Nat × Nat}

theorem keeps_counting_outside {β : Type} {x : Action σ β} (hx : Keeps P (fun _ => True) x) :
    Keeps (Counting (α := α) n P) (fun _ => True) x.outside :=
  hx.outside (T := fun c : ChannelHopping α => c.counts = n)

variable [Journal σ]

section Notes

variable (hnote : ∀ (n : Note) s, P s → P (Journal.enter n s))

include hnote

theorem keeps_remark (r : Remark) :
    Keeps (Counting (α := α) n P) (fun _ => True) (remark r) := by
  unfold remark
  refine (keeps_part (Q := fun _ => True) fun _ _ _ => trivial).bind fun c _ => ?_
  exact keeps_note (fun note p hp => ⟨hp.1, hnote note p.2 hp.2⟩) _

/-- A boundary that passes. -/
theorem keeps_settle : Keeps (Counting (α := α) n P) (fun _ => True) settle := by
  unfold settle
  refine (keeps_part (Q := fun _ => True) fun _ _ _ => trivial).bind fun c _ => ?_
  refine Keeps.bind (R := fun _ => True) ?_ fun _ _ => keeps_pure trivial
  exact (Settling.keeps_epochPassed hnote _).within (T := fun c : ChannelHopping α => c.counts = n)
    fun _ _ hc => hc

/-- An outcome is counted, if it is entered at all. -/
theorem meets_recordOutcome {c : ChannelHopping α} {s : σ} (hs : P s) (slot channel : Datum)
    (success : Bool) :
    Meets True (recordOutcome slot channel success) (c, s)
      (fun _ => Counting (c.counting success).counts P) := by
  have hremark : ∀ r, Keeps (Counting (α := α) (c.counting success).counts P) (fun _ => True)
      (remark r) := keeps_remark hnote
  unfold recordOutcome
  rw [meets_bind, meets_part, meets_bind]
  refine meets_ofExcept_of (.inr trivial) fun t _ => ?_
  rw [meets_bind]
  refine meets_ofExcept_of (.inr trivial) fun ch _ => ?_
  rw [meets_bind, meets_change]
  have hcounted : Counting (c.counting success).counts P (c.counting success, s) := ⟨rfl, hs⟩
  split
  · exact ((hremark _).meets hcounted).mono fun _ _ hp => hp.2
  · rw [meets_bind]
    refine ((hremark _).meets hcounted).mono ?_
    rintro _ ⟨d, t⟩ ⟨-, hp⟩
    rw [meets_bind]
    refine meets_ofExcept_of (.inr trivial) fun outcomes _ => ?_
    exact hp

variable [Arith α]

theorem keeps_learn : Keeps (Counting (α := α) n P) (fun _ => True) learn := by
  unfold learn
  refine (keeps_part (Q := fun _ => True) fun _ _ _ => trivial).bind fun c _ => ?_
  split
  · exact keeps_remark hnote _
  refine Keeps.within (T := fun c : ChannelHopping α => c.counts = n) (fun _ _ hc => hc) ?_
  unfold Lookahead.apply
  refine (keeps_part (Q := fun _ => True) fun _ _ _ => trivial).bind fun table _ => ?_
  refine (keeps_forM fun r _ => ?_).bind fun _ _ => ?_
  · refine Keeps.bind (keeps_change fun t s hp => hp) fun _ _ => ?_
    exact keeps_note (fun note p hp => hnote note p.2 hp) _
  · split
    · exact keeps_throw _
    · exact keeps_pure trivial

end Notes

/-- What a scheduler needs does not affect an assertion about its surroundings. -/
structure Needs.Keep (P : σ → Prop) (needs : Needs σ α) : Prop where
  deploy : ∀ configuration, Keeps P (fun _ => True) (needs.deploy configuration)
  uniform : Keeps P (fun _ => True) needs.draws.uniform
  below : ∀ bound, Keeps P (fun _ => True) (needs.draws.below bound)
  note : ∀ (n : Note) s, P s → P (Journal.enter n s)

variable {needs : Needs σ α} (h : needs.Keep P)

include h

theorem keeps_deployConfiguration (configuration : List Datum) :
    Keeps (Counting n P) (fun _ => True) (deployConfiguration needs configuration) := by
  unfold deployConfiguration
  refine (keeps_part (Q := fun _ => True) fun _ _ _ => trivial).bind fun c _ => ?_
  split
  · exact (keeps_throw (R := fun _ => False) _).bind fun _ hno => hno.elim
  refine (keeps_counting_outside (h.deploy configuration)).bind fun answer _ => ?_
  split
  · refine Keeps.bind (keeps_change fun c s hp => ?_) fun _ _ => ?_
    · exact hp
    · exact (keeps_remark h.note _).bind fun _ _ => keeps_pure trivial
  · exact (keeps_remark h.note _).bind fun _ _ => keeps_pure trivial

variable [Arith α]

theorem keeps_chooseAction (slot : Datum) :
    Keeps (Counting n P) (fun _ => True) (chooseAction needs slot) := by
  have hnote : ∀ note : Note, Keeps (Counting (α := α) n P) (fun _ => True) (Action.note note) :=
    keeps_note fun note p hp => ⟨hp.1, h.note note p.2 hp.2⟩
  unfold chooseAction Selection.chooseChannel Selection.explores
  refine (keeps_part (Q := fun _ => True) fun _ _ _ => trivial).bind fun c _ => ?_
  refine (keeps_ofExcept _).bind fun slot _ => ?_
  refine Keeps.bind (R := fun _ => True) ?_ fun explores _ => ?_
  · split
    · exact (keeps_counting_outside h.uniform).bind fun _ _ => keeps_pure trivial
    · exact keeps_pure trivial
  split
  · refine (keeps_counting_outside (h.below _)).bind fun channel _ => ?_
    exact (hnote _).bind fun _ _ => keeps_pure trivial
  · exact (hnote _).bind fun _ _ => keeps_pure trivial

theorem keeps_deployPolicy : Keeps (Counting n P) (fun _ => True) (deployPolicy needs) := by
  have heach : ∀ slots, Keeps (Counting n P) (fun _ => True) (chooseEach needs slots) := by
    intro slots
    induction slots with
    | nil => exact keeps_pure trivial
    | cons slot rest ih =>
      refine (keeps_chooseAction h _).bind fun channel _ => ?_
      exact ih.bind fun _ _ => keeps_pure trivial
  unfold deployPolicy computePolicy
  refine Keeps.bind (R := fun _ => True) ?_ fun policy _ => keeps_deployConfiguration h _
  exact (keeps_part (Q := fun _ => True) fun _ _ _ => trivial).bind fun c _ => heach _

/-- The end of a slotframe changes no count. -/
theorem keeps_updateEpoch : Keeps (Counting n P) (fun _ => True) (updateEpoch needs) := by
  unfold updateEpoch
  refine Keeps.bind (keeps_change fun c s hp => hp) fun _ _ => ?_
  refine (keeps_part (Q := fun _ => True) fun _ _ _ => trivial).bind fun c _ => ?_
  dsimp only
  have hrest : ∀ learning : Bool, Keeps (Counting n P) (fun _ => True) (do
      Action.change fun c => { c with outcomes := c.outcomes.clear }
      let _ ← deployPolicy needs
      if !learning then settle) := by
    intro learning
    refine Keeps.bind (keeps_change fun c s hp => hp) fun _ _ => ?_
    refine (keeps_deployPolicy h).bind fun _ _ => ?_
    split
    · exact keeps_settle h.note
    · exact keeps_pure trivial
  split
  · exact (keeps_learn h.note).bind fun _ _ => hrest _
  · exact hrest _

theorem keeps_onSlotBoundary (x : Datum) :
    Keeps (Counting n P) (fun _ => True) (onSlotBoundary needs x) := by
  unfold onSlotBoundary
  refine (keeps_ofExcept _).bind fun asn _ => ?_
  refine (keeps_part (Q := fun _ => True) fun _ _ _ => trivial).bind fun c _ => ?_
  have hclose : Keeps (Counting n P) (fun _ => True)
      (if 0 < asn ∧ asn % c.table.slots = 0 then updateEpoch needs else pure ()) := by
    split
    · exact keeps_updateEpoch h
    · exact keeps_pure trivial
  cases hasn : c.asn with
  | none =>
    refine Keeps.bind (keeps_change fun c s hp => hp) fun _ _ => ?_
    exact (keeps_deployConfiguration h _).bind fun _ _ => hclose
  | some last =>
    dsimp only
    split
    · exact (keeps_throw (R := fun _ => False) _).bind fun _ hno => hno.elim
    · exact Keeps.bind (keeps_change fun c s hp => hp) fun _ _ => hclose

end ChannelHopping
end TschLearning
