import TschLearning.Proofs.Scheduler.Moves

/-! Whatever can happen to a slot scheduler: it is told of slots, of outcomes and of the traffic of
other devices, rightly or wrongly, and in between its surroundings change on their own. -/

namespace TschLearning

open TschLearning.Action

/-- Whether a value is the number of a given slot. -/
def Datum.isSlot (slot : Nat) : Datum → Bool
  | .int i => i = slot
  | _ => false

inductive Happening (σ : Type) where
  | called (call : Signal)
  | overheard (slot : Datum)
  | elsewhere (change : σ → σ)

namespace Happening

variable {σ : Type}

/-- The call of the scheduler that has to do with its clock. -/
def call? : Happening σ → Option Signal
  | .called call => some call
  | _ => none

/-- Whether traffic is overheard in a given slot. -/
def isHeardIn (slot : Nat) : Happening σ → Bool
  | .overheard x => x.isSlot slot
  | _ => false

/-- The slot numbers accepted over some happenings, in order. -/
def accepted (events : List (Happening σ)) : List Nat := Signal.accepted (events.filterMap call?)

/-- The slot numbers accepted, once something else has happened. -/
def noticed (taken : List Nat) : Happening σ → List Nat
  | .called call => call.heard taken
  | _ => taken

theorem accepted_concat (past : List (Happening σ)) (event : Happening σ) :
    accepted (past ++ [event]) = event.noticed (accepted past) := by
  unfold accepted
  rw [List.filterMap_append]
  cases event with
  | called call => exact Signal.accepted_concat _ call
  | overheard slot => exact congrArg Signal.accepted (List.append_nil _)
  | elsewhere change => exact congrArg Signal.accepted (List.append_nil _)

theorem accepted_boundary (past : List (Happening σ)) (x : Datum) :
    accepted (past ++ [.called (.boundary x)])
      = accepted past ++ (Signal.later? (accepted past).getLast? x).toList :=
  accepted_concat past _

/-- No number is ever taken back. -/
theorem accepted_isPrefix (past later : List (Happening σ)) :
    accepted past <+: accepted (past ++ later) := by
  induction later using List.reverseRecOn with
  | nil => rw [List.append_nil]
  | append_singleton later event ih =>
    rw [← List.append_assoc, accepted_concat]
    refine ih.trans ?_
    cases event with
    | called call =>
      cases call with
      | boundary x => exact List.prefix_append _ _
      | outcome slot channel success => exact List.prefix_rfl
    | overheard slot => exact List.prefix_rfl
    | elsewhere change => exact List.prefix_rfl

end Happening

/-- The scores once activity was overheard. -/
def PeakingTable.raised {α : Type} [Arith α] (t : PeakingTable α) (slot : Datum) :
    PeakingTable α :=
  match t.bump slot 1 with
  | .ok raised => raised
  | .error _ => t

theorem PeakingTable.length_raised {α : Type} [Arith α] (t : PeakingTable α) (slot : Datum) :
    (t.raised slot).scores.length = t.scores.length := by
  unfold raised bump
  cases t.checkSlot slot with
  | ok s => exact List.length_modify ..
  | error f => rfl

namespace SlotSelection

variable {σ τ μ α : Type} [Journal σ] [Arith α] {needs : Needs μ σ α}

def happen (needs : Needs μ σ α) : Happening σ → Action (SlotSelection μ α × σ) Unit
  | .called call => hear needs call
  | .overheard slot => onOverheardActivity slot
  | .elsewhere change => Action.outside (modify change)

/-- Something happens, and the deployments are written down. -/
def happenWriting (needs : Needs μ σ α) :
    Happening σ → Action (SlotSelection μ α × List LinkDeployment × σ) Unit
  | .called call => hearWriting needs call
  | .overheard slot => onOverheardActivity slot
  | .elsewhere change => Action.outside (Action.outside (modify change))

/-- The same comes of it whether the deployments are written down or not. -/
theorem agree_happenWriting (needs : Needs μ σ α) (event : Happening σ) :
    Agree (Beside (SlotSelection μ α) Besides) Eq (happenWriting needs event)
      (happen needs event) := by
  cases event with
  | called call => exact agree_hearWriting needs call
  | overheard slot =>
    show Agree _ Eq (onOverheardActivity slot) (onOverheardActivity slot)
    unfold onOverheardActivity
    apply agree_part.bind
    rintro a _ rfl
    apply (agree_ofExcept _).bind
    rintro peaking _ rfl
    exact agree_change _
  | elsewhere change =>
    have hchange : Agree (Besides (τ := List LinkDeployment)) Eq
        (Action.outside (modify change : Action σ Unit)) (modify change) := agree_besides _
    exact hchange.outside

omit [Journal σ] in
/-- Overheard activity changes a score, and nothing at all if the slot is none. -/
theorem settles_onOverheardActivity {a : SlotSelection μ α} (slot : Datum) (s : σ) :
    Settles (onOverheardActivity slot) (a, s) fun _ p =>
      p = ({ a with peaking := a.peaking.raised slot }, s) := by
  unfold onOverheardActivity PeakingTable.raised
  rw [settles_part_bind, settles_ofExcept_bind]
  cases a.peaking.bump slot 1 with
  | ok peaking => exact rfl
  | error f => exact rfl

omit [Journal σ] in
/-- Activity overheard in a slot that is none changes nothing. -/
theorem onOverheardActivity_of_forall_isSlot {a : SlotSelection μ α} {x : Datum}
    (h : ∀ slot < a.peaking.scores.length, x.isSlot slot = false) (s : σ) :
    ∃ f, onOverheardActivity x (a, s) = .error f (a, s) := by
  have hbump : ∃ f, a.peaking.bump x 1 = .error f := by
    unfold PeakingTable.bump PeakingTable.checkSlot
    cases hcheck : checkIndex (possessive a.peaking.label) "slot" a.peaking.slots x with
    | error f => exact ⟨f, rfl⟩
    | ok i =>
      obtain ⟨rfl, hi⟩ := checkIndex_eq_ok hcheck
      have hno := h i (Int.ofNat_lt.1 hi)
      simp [Datum.isSlot] at hno
  obtain ⟨f, hf⟩ := hbump
  refine ⟨f, ?_⟩
  simp only [onOverheardActivity, bind, EStateM.bind, part, Action.ofExcept, hf]
  rfl

/-- What every happening keeps, of the happenings so far, holds after all of them. -/
theorem attemptEach_happen_eq_ok
    {I : List (Happening σ) → SlotSelection μ α × List LinkDeployment × σ → Prop}
    {events : List (Happening σ)}
    (hstep : ∀ past, ∀ event ∈ events, ∀ p, I past p →
      Settles (happenWriting needs event) p fun _ q => I (past ++ [event]) q)
    {a : SlotSelection μ α} {s : σ} (hstart : I [] (a, [], s)) :
    ∃ outcomes a' made t,
      attemptEach (happenWriting needs) events (a, [], s) = .ok outcomes (a', made, t) ∧
      attemptEach (happen needs) events (a, s) = .ok outcomes (a', t) ∧ I events (a', made, t) := by
  have hrun : Ends (attemptEach (happenWriting needs) events) (a, [], s) fun _ p =>
      I ([] ++ events) p := ends_attemptEach hstep hstart
  obtain ⟨_, ⟨_, _⟩, hplain, outcomes, ⟨a', made, t⟩, hwriting, hend, rfl, rfl, rfl⟩ :=
    ends_iff.1 ((Agree.attemptEach (agree_happenWriting needs) events).ends (s := (a, [], s))
      (t := (a, s)) ⟨rfl, rfl⟩ hrun)
  exact ⟨outcomes, a', made, t, hwriting, hplain, hend⟩

theorem attempt_happen_eq_ok {event : Happening σ} {a : SlotSelection μ α}
    {made : List LinkDeployment} {s : σ}
    {post : Except Fault Unit → SlotSelection μ α × List LinkDeployment × σ → Prop}
    (h : Settles (happenWriting needs event) (a, made, s) post) :
    ∃ outcome a' made' t,
      attempt (happenWriting needs event) (a, made, s) = .ok outcome (a', made', t) ∧
      attempt (happen needs event) (a, s) = .ok outcome (a', t) ∧ post outcome (a', made', t) := by
  obtain ⟨_, ⟨_, _⟩, hplain, outcome, ⟨a', made', t⟩, hwriting, hend, rfl, rfl, rfl⟩ :=
    ends_iff.1 ((agree_happenWriting needs event).attempt.ends (s := (a, made, s)) (t := (a, s))
      ⟨rfl, rfl⟩ (ends_attempt.2 h))
  exact ⟨outcome, a', made', t, hwriting, hplain, hend⟩

end SlotSelection
end TschLearning
