import TschLearning.Network
import TschLearning.Proofs.Action.Agree

/-! Surroundings that do the same as far as a relation between their states can tell. A network
runs in one just as it runs in the other. -/

namespace TschLearning

open TschLearning.Action

variable {μ κ ο σ τ α : Type}

/-- Whatever a network asks for is done alike by both surroundings. -/
structure Surroundings.Alike [Journal σ] [Journal τ] (R : σ → τ → Prop)
    (env : Surroundings μ κ ο σ α) (env' : Surroundings μ κ ο τ α) : Prop where
  read : ∀ i, Agree R Eq (env.macs.read i) (env'.macs.read i)
  update : ∀ {β : Type} i (f : Mac κ → Except Fault (β × Mac κ)),
    Agree R Eq (env.macs.update i f) (env'.macs.update i f)
  uniform : Agree R Eq env.draws.uniform env'.draws.uniform
  boundary : ∀ k asn, Agree R Eq (env.boundary k asn) (env'.boundary k asn)
  outcome : ∀ k slot channel success,
    Agree R Eq (env.outcome k slot channel success) (env'.outcome k slot channel success)
  overheard : ∀ k slot, Agree R Eq (env.overheard k slot) (env'.overheard k slot)
  observe : ∀ o r, Agree R Eq (env.observe o r) (env'.observe o r)
  note : ∀ n, Agree R Eq (note n : Action σ Unit) (note n : Action τ Unit)

namespace Surroundings.Alike

variable [Journal σ] [Journal τ] {R : σ → τ → Prop} {env : Surroundings μ κ ο σ α}
  {env' : Surroundings μ κ ο τ α}

theorem symm (h : Alike R env env') : Alike (fun t s => R s t) env' env where
  read i := (h.read i).symm
  update i f := (h.update i f).symm
  uniform := h.uniform.symm
  boundary k asn := (h.boundary k asn).symm
  outcome k slot channel success := (h.outcome k slot channel success).symm
  overheard k slot := (h.overheard k slot).symm
  observe o r := (h.observe o r).symm
  note n := (h.note n).symm

end Surroundings.Alike

namespace Network

open Surroundings

variable [Journal σ] [Journal τ] {R : σ → τ → Prop} {env : Surroundings μ κ ο σ α}
  {env' : Surroundings μ κ ο τ α}

theorem agree_announce (h : Alike R env env') (asn : Nat) (ids : List μ) :
    Agree R Eq (announce env asn ids) (announce env' asn ids) := by
  induction ids with
  | nil => exact agree_pure rfl
  | cons i rest ih => exact (h.update i _).bind fun _ _ _ => ih

theorem agree_sinksOf (h : Alike R env env') (ids : List μ) :
    Agree R Eq (sinksOf env ids) (sinksOf env' ids) := by
  induction ids with
  | nil => exact agree_pure rfl
  | cons i rest ih =>
    refine (h.read i).bind ?_
    rintro m _ rfl
    refine ih.bind ?_
    rintro sinks _ rfl
    exact agree_pure rfl

theorem agree_deliverBoundary (h : Alike R env env') (asn : Nat) (sinks : List κ) :
    Agree R Eq (deliverBoundary env asn sinks) (deliverBoundary env' asn sinks) := by
  induction sinks with
  | nil => exact agree_pure rfl
  | cons k rest ih => exact (h.boundary k asn).bind fun _ _ _ => ih

theorem agree_deliverOverheard [DecidableEq μ] (h : Alike R env env') (slot : Datum)
    (senders ids : List μ) :
    Agree R Eq (deliverOverheard env slot senders ids)
      (deliverOverheard env' slot senders ids) := by
  induction ids with
  | nil => exact agree_pure rfl
  | cons i rest ih =>
    refine (h.read i).bind ?_
    rintro m _ rfl
    cases m.sink with
    | none => exact ih
    | some k =>
      by_cases hi : i ∈ senders
      · simp only [if_neg (not_not_intro hi)]
        exact ih
      · simp only [if_pos hi]
        exact (h.overheard k slot).bind fun _ _ _ => ih

theorem agree_trigger (h : Alike R env env') (observers : Notifier ο) (value : Datum)
    (r : TransmissionRecord μ) :
    Agree R Eq (observers.trigger value (env.observe · r))
      (observers.trigger value (env'.observe · r)) := by
  refine (h.note _).bind fun _ _ _ => ?_
  induction observers.callees with
  | nil => exact agree_pure rfl
  | cons o rest ih => exact (h.observe o r).bind fun _ _ _ => ih

variable [Arith α]

theorem agree_generate (h : Alike R env env') (traffic : Except Fault α) (i : μ) :
    Agree R Eq (generate env traffic i) (generate env' traffic i) := by
  refine (agree_ofExcept traffic).bind ?_
  rintro q _ rfl
  by_cases hq : Arith.lt 0 q = true
  · simp only [if_pos hq]
    refine h.uniform.bind ?_
    rintro u _ rfl
    by_cases hu : Arith.lt u q = true
    · simp only [if_pos hu]
      exact h.update i _
    · simp only [if_neg hu]
      exact agree_pure rfl
  · simp only [if_neg hq]
    exact agree_pure rfl

theorem agree_transmitters (h : Alike R env env') (traffic : Except Fault α) (slot : Datum)
    (ids : List μ) :
    Agree R Eq (transmitters env traffic slot ids) (transmitters env' traffic slot ids) := by
  induction ids with
  | nil => exact agree_pure rfl
  | cons i rest ih =>
    refine (h.read i).bind ?_
    rintro m _ rfl
    refine (agree_ofExcept _).bind ?_
    rintro channel _ rfl
    cases channel with
    | none => exact ih
    | some c =>
      refine (agree_generate h traffic i).bind fun _ _ _ => ?_
      refine (h.update i _).bind ?_
      rintro frame _ rfl
      refine ih.bind ?_
      rintro others _ rfl
      exact agree_pure rfl

variable (net : Network μ ο α)

theorem agree_statusOf (h : Alike R env env') (slot : Datum) (sender : String) (channel : Int)
    (rivals : Nat) :
    Agree R Eq (statusOf env net slot sender channel rivals)
      (statusOf env' net slot sender channel rivals) := by
  unfold statusOf
  by_cases hrivals : 1 < rivals
  · simp only [if_pos hrivals]
    exact (h.note _).bind fun _ _ _ => agree_pure rfl
  · simp only [if_neg hrivals]
    have hdisturbed : Agree R Eq (net.interference.disturbed env.draws (.int channel))
        (net.interference.disturbed env'.draws (.int channel)) := by
      refine h.uniform.bind ?_
      rintro u _ rfl
      refine (agree_ofExcept _).bind ?_
      rintro p _ rfl
      exact agree_pure rfl
    refine hdisturbed.bind ?_
    rintro disturbed _ rfl
    cases disturbed <;> exact agree_pure rfl

theorem agree_confirm (h : Alike R env env') (slot : Datum) (all rest : List (μ × Int)) :
    Agree R Eq (confirm env net slot all rest) (confirm env' net slot all rest) := by
  induction rest with
  | nil => exact agree_pure rfl
  | cons e rest ih =>
    refine (h.read e.1).bind ?_
    rintro m _ rfl
    refine (agree_statusOf net h _ _ _ _).bind ?_
    rintro status _ rfl
    cases m.sink with
    | none => exact (agree_trigger h _ _ _).bind fun _ _ _ => ih
    | some k =>
      refine (h.outcome k _ _ _).bind fun _ _ _ => ?_
      exact (agree_trigger h _ _ _).bind fun _ _ _ => ih

variable [DecidableEq μ] [DecidableEq κ]

theorem agree_runSlot (h : Alike R env env') :
    Agree R Eq (runSlot env net) (runSlot env' net) := by
  refine (agree_ofExcept _).bind ?_
  rintro slot _ rfl
  refine (agree_announce h _ _).bind fun _ _ _ => ?_
  refine (agree_sinksOf h _).bind ?_
  rintro sinks _ rfl
  refine (agree_deliverBoundary h _ _).bind fun _ _ _ => ?_
  refine (agree_transmitters h _ _ _).bind ?_
  rintro transmissions _ rfl
  refine (agree_confirm net h _ _ _).bind fun _ _ _ => ?_
  cases transmissions with
  | nil => exact agree_pure rfl
  | cons e rest => exact (agree_deliverOverheard h _ _ _).bind fun _ _ _ => agree_pure rfl

theorem agree_advance (h : Alike R env env') :
    Agree (Beside (Network μ ο α) R) Eq (advance env) (advance env') := by
  refine agree_part.bind ?_
  rintro net _ rfl
  refine (agree_runSlot net h).outside.bind ?_
  rintro next _ rfl
  exact agree_change _

theorem agree_runSlots (h : Alike R env env') (n : Nat) :
    Agree (Beside (Network μ ο α) R) Eq (runSlots env n) (runSlots env' n) := by
  induction n with
  | zero => exact agree_pure rfl
  | succ n ih => exact (agree_advance h).bind fun _ _ _ => ih

theorem runSlots_of_alike (h : Alike R env env') {n : Nat} {net net' : Network μ ο α} {s s' : σ}
    {t : τ} (hst : R s t) (hrun : runSlots env n (net, s) = .ok () (net', s')) :
    ∃ t', runSlots env' n (net, t) = .ok () (net', t') ∧ R s' t' := by
  have hends : Ends (runSlots env n) (net, s) fun _ u => u = (net', s') :=
    ends_iff.2 ⟨_, _, hrun, rfl⟩
  have hrun' := (agree_runSlots h n).ends (s := (net, s)) (t := (net, t)) ⟨rfl, hst⟩ hends
  obtain ⟨_, ⟨net'', t'⟩, hrun', _, _, -, rfl, -, hnet, ht⟩ := ends_iff.1 hrun'
  obtain rfl : net' = net'' := hnet
  exact ⟨t', hrun', ht⟩

end Network
end TschLearning
