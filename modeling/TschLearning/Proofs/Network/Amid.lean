import TschLearning.Proofs.Network.Resolved

/-! Runs of slots amid operations of callers: before every slot somebody may do something to the
devices. What the network does in such a run is told by the episodes of its slots, one after the
other. -/

namespace TschLearning

open TschLearning.Action

variable {μ κ ο σ α : Type}

namespace Network

variable [DecidableEq μ] [DecidableEq κ] [Arith α] [Journal σ]

/-- Runs a slot after each of some operations, whatever comes of these. -/
def runAmid (env : Surroundings μ κ ο σ α) :
    List (Action σ Unit) → Action (Network μ ο α × σ) Unit
  | [] => pure ()
  | x :: rest => do
    let _ ← x.attempt.outside
    advance env
    runAmid env rest

theorem agree_runAmid (env : Surroundings μ κ ο σ α) (callers : List (Action σ Unit)) :
    Agree (Beside (Network μ ο α) Entered) Eq (runAmid env.logged (callers.map outside))
      (runAmid env callers) := by
  induction callers with
  | nil => exact agree_pure rfl
  | cons x rest ih =>
    apply (agree_outside x).attempt.outside.bind
    intro _ _ _
    exact (agree_advance (logged_alike env)).bind fun _ _ _ => ih

theorem runAmid_of_logged {env : Surroundings μ κ ο σ α} {callers : List (Action σ Unit)}
    {net net' : Network μ ο α} {log log' : List (Deed μ κ ο α)} {s t : σ}
    (h : runAmid env.logged (callers.map outside) (net, log, s) = .ok () (net', log', t)) :
    runAmid env callers (net, s) = .ok () (net', t) := by
  have hends : Ends (runAmid env.logged (callers.map outside)) (net, log, s) fun _ p =>
      p = (net', log', t) := ends_iff.2 ⟨_, _, h, rfl⟩
  have hbeside : Beside (Network μ ο α) Entered (net, log, s) (net, s) := ⟨rfl, rfl⟩
  have hplain := (agree_runAmid env callers).ends hbeside hends
  obtain ⟨_, ⟨_, _⟩, hrun, _, _, -, rfl, -, rfl, rfl⟩ := ends_iff.1 hplain
  exact hrun

end Network

/-- Episodes one after the other, from one state to another. Between them devices change as the
relation says. -/
def Episode.Chain [Arith α] (shelf : Shelf μ (Mac κ) σ) (ids : List μ)
    (R : Mac κ → Mac κ → Prop) : List (Episode μ κ σ α) → σ → σ → Prop
  | [], s, t => s = t
  | e :: rest, s, t => shelf.Altered ids R s e.start ∧ Chain shelf ids R rest e.finish t

namespace Network

variable [DecidableEq μ] [DecidableEq κ] [Arith α] [Journal σ] {env : Surroundings μ κ ο σ α}
  {early late : Mac κ → Mac κ → Prop} {slots channels : Nat} {directory : Directory μ κ}
  {net : Network μ ο α} {q : α} {log : List (Deed μ κ ο α)} {s : σ}

theorem endsOr_advance (h : env.Tame net.macs early late)
    (hearly : Mac.Gentle slots channels early) (hlate : Mac.Gentle slots channels late)
    (hnet : net.Regular slots channels) (hq : net.traffic = .ok q) (hnodup : net.macs.Nodup)
    (asn : Nat) (hs : env.macs.Attached slots channels net.macs directory s) :
    EndsOr (fun p => Raised p.2) (advance env.logged) ({ net with asn }, log, s) fun _ p =>
      p.1 = { net with asn := asn + 1 } ∧ ∃ e : Episode μ κ σ α, e.asn = asn ∧ e.start = s ∧
        e.finish = p.2.2 ∧ e.Valid env net slots q ∧ e.Moved env net slots q early late ∧
        p.2.1 = log ++ e.deeds env net slots q directory ∧
        env.macs.Attached slots channels net.macs directory p.2.2 := by
  unfold advance
  rw [endsOr_bind, endsOr_part, endsOr_bind]
  apply endsOr_outside.2
  have hnet' : Network.Regular slots channels { net with asn } := { hnet with }
  refine (endsOr_runSlot { net with asn } h hearly hlate hnet' hq hnodup hs).mono ?_
  rintro _ ⟨_, t⟩ ⟨e, hasn, hstart, hfinish, rfl, hvalid, hmoved, rfl, ht⟩
  have hvalid' : e.Valid env net slots q :=
    ⟨⟨hvalid.device_eq, hvalid.mac_eq, hvalid.fair, hvalid.confirmed, hvalid.drawn_iff⟩,
      hvalid.runs, hvalid.opens⟩
  exact ⟨rfl, e, hasn, hstart, hfinish, hvalid', ⟨hmoved.opened, hmoved.finish⟩, rfl, ht⟩

/-- Episodes one after the other are an account of a run amid operations of callers, unless a
handler raises a fault. -/
theorem endsOr_runAmid (h : env.Tame net.macs early late)
    (hearly : Mac.Gentle slots channels early) (hlate : Mac.Gentle slots channels late)
    (hnet : net.Regular slots channels) (hq : net.traffic = .ok q) (hnodup : net.macs.Nodup)
    {callers : List (Action σ Unit)}
    (hcallers : ∀ x ∈ callers, env.macs.Alters net.macs early x)
    (asn : Nat) (hs : env.macs.Attached slots channels net.macs directory s) :
    EndsOr (fun p => Raised p.2) (runAmid env.logged (callers.map outside))
      ({ net with asn }, log, s) fun _ p =>
        p.1 = { net with asn := asn + callers.length } ∧ ∃ episodes : List (Episode μ κ σ α),
          episodes.map (·.asn) = List.range' asn callers.length ∧
          (∀ e ∈ episodes, e.Valid env net slots q ∧ e.Moved env net slots q early late) ∧
          Episode.Chain env.macs net.macs early episodes s p.2.2 ∧
          p.2.1 = log ++ episodes.flatMap (·.deeds env net slots q directory) := by
  induction callers generalizing asn log s with
  | nil => exact ⟨rfl, [], rfl, fun e he => absurd he List.not_mem_nil, rfl, by simp⟩
  | cons x rest ih =>
    rw [List.forall_mem_cons] at hcallers
    rw [List.map_cons, runAmid, endsOr_bind]
    have hcaller : Ends x.outside.attempt.outside (({ net with asn } : Network μ ο α), log, s)
        fun _ p => p.1 = { net with asn } ∧ p.2.1 = log ∧
          env.macs.Altered net.macs early s p.2.2 := by
      rw [ends_outside, ends_attempt, settles_outside]
      exact (hcallers.1 s).mono fun _ _ ht => ⟨rfl, rfl, ht⟩
    refine hcaller.endsOr.mono ?_
    rintro _ ⟨_, log', s'⟩ ⟨rfl, hlog', hs'⟩
    obtain rfl : log' = log := hlog'
    rw [endsOr_bind]
    refine (endsOr_advance h hearly hlate hnet hq hnodup asn (hs.altered hearly.tended hs')).mono ?_
    rintro _ ⟨_, _, t⟩ ⟨rfl, e, hasn, rfl, rfl, hvalid, hmoved, rfl, ht⟩
    refine (ih hcallers.2 (asn + 1) ht).mono ?_
    rintro _ ⟨_, _, u⟩ ⟨rfl, episodes, hasns, hall, hchain, rfl⟩
    refine ⟨?_, e :: episodes, ?_, ?_, ⟨hs', hchain⟩, ?_⟩
    · simp only [List.length_cons, Nat.add_assoc, Nat.add_comm 1]
    · rw [List.map_cons, hasns, hasn, List.length_cons, List.range'_succ]
    · exact List.forall_mem_cons.2 ⟨⟨hvalid, hmoved⟩, hall⟩
    · rw [List.flatMap_cons, List.append_assoc]

end Network
end TschLearning
