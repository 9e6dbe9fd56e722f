import TschLearning.Deployer
import TschLearning.Mac
import TschLearning.Proofs.Links.Distinct

/-! Schedules of simulated MAC layers: the same configuration, as a hopping sequence or as
links, and what a MAC layer is apart from it. -/

namespace TschLearning

/-- A value that can be looked up in a dictionary. -/
def Datum.IsKey : Datum → Prop
  | .list _ | .dict _ => False
  | _ => True

/-- The links that give its channel to every slot, if a configuration was deployed. -/
def Links.ofConfiguration : Option (List Int) → Links
  | none => .empty
  | some channels => .ofChannels channels

theorem Links.distinct_ofConfiguration (x : Option (List Int)) : (ofConfiguration x).Distinct := by
  cases x with
  | none => exact distinct_empty
  | some channels => exact distinct_ofChannels channels

theorem Links.Same.channel?_eq {a b : Links} (h : a.Same b) (hb : b.Distinct) (s : Int) :
    a.channel? s = b.channel? s := by
  have hslots : a.slots.Perm b.slots := h.map _
  have ha : a.Distinct := hslots.nodup_iff.2 hb
  refine Option.ext fun c => ?_
  rw [← mem_entries_iff ha, ← mem_entries_iff hb, h.mem_iff]

namespace Mac

variable {κ β : Type}

/-- The MAC layer has a configuration in the form that a kind of deployer brings, and nothing
else. -/
def Holds (mode : DeployMode) (x : Option (List Int)) (m : Mac κ) : Prop :=
  match mode with
  | .hoppingSequence => m.links = .empty ∧ m.sequence = x
  | .links => m.links.Same (.ofConfiguration x) ∧ m.sequence = none

theorem mem_foldr_insertOwned (t : Nat) (items : List Nat) :
    t ∈ items.foldr insertOwned [] ↔ t ∈ items := by
  induction items with
  | nil => exact Iff.rfl
  | cons s rest ih => rw [List.foldr_cons, mem_insertOwned, ih, List.mem_cons]

theorem channelIn_natCast (m : Mac κ) (t : Nat) :
    m.channelIn t =
      if m.owned.contains t then (m.links.channel? t).or (m.sequence.bind (·[t]?)) else none := by
  have hneg : ¬(t : Int) < 0 := by omega
  simp only [channelIn, hneg, false_or, Int.toNat_natCast]
  cases m.owned.contains t with
  | false => rfl
  | true => cases m.links.channel? t <;> rfl

/-- In either form a configuration gives its channel to every slot that is owned. -/
theorem Holds.channelFor {mode : DeployMode} {x : Option (List Int)} {m : Mac κ}
    (h : m.Holds mode x) (t : Nat) :
    m.channelFor (.int t) = .ok (if m.owned.contains t then x.bind (·[t]?) else none) := by
  have hscheduled : (m.links.channel? t).or (m.sequence.bind (·[t]?)) = x.bind (·[t]?) := by
    cases mode with
    | hoppingSequence =>
      obtain ⟨hl, hs⟩ := h
      rw [hl, hs, Links.channel?_empty, Option.none_or]
    | links =>
      obtain ⟨hl, hs⟩ := h
      rw [hl.channel?_eq (Links.distinct_ofConfiguration x), hs, Option.bind_none, Option.or_none]
      cases x with
      | none => rfl
      | some channels =>
        rw [Links.ofConfiguration, Links.channel?_ofChannels, if_pos (Int.natCast_nonneg t)]
        rfl
  rw [Mac.channelFor, channelIn_natCast, hscheduled]

/-! ### Apart from the schedule -/

/-- The MAC layer apart from its schedule. -/
def bare (m : Mac κ) : Mac κ := { m with links := .empty, sequence := none }

/-- A change of a MAC layer that is about its queue and its slot number alone. -/
def Routine (f : Mac κ → β × Mac κ) : Prop :=
  ∃ g : List Frame → Option Nat → β × List Frame × Option Nat, ∀ m : Mac κ,
    f m = ((g m.queue m.asn).1,
      { m with queue := (g m.queue m.asn).2.1, asn := (g m.queue m.asn).2.2 })

theorem Routine.bare_congr {f : Mac κ → β × Mac κ} (hf : Routine f) {m m' : Mac κ}
    (h : m.bare = m'.bare) : (f m).1 = (f m').1 ∧ (f m).2.bare = (f m').2.bare := by
  obtain ⟨g, hg⟩ := hf
  have hbare : f m.bare = ((f m).1, (f m).2.bare) := by rw [hg m, hg m.bare]; rfl
  have hbare' : f m'.bare = ((f m').1, (f m').2.bare) := by rw [hg m', hg m'.bare]; rfl
  rw [h, hbare'] at hbare
  exact Prod.mk.inj hbare.symm

theorem Routine.holds {f : Mac κ → β × Mac κ} (hf : Routine f) {mode : DeployMode}
    {x : Option (List Int)} {m : Mac κ} (h : m.Holds mode x) : (f m).2.Holds mode x := by
  obtain ⟨g, hg⟩ := hf
  rw [hg m]
  exact h

theorem routine_at (asn : Option Nat) : Routine fun m : Mac κ => ((), { m with asn }) :=
  ⟨fun queue _ => ((), queue, asn), fun _ => rfl⟩

theorem routine_request (destination size : Datum) :
    Routine fun m : Mac κ => ((), m.request destination size) :=
  ⟨fun queue asn => ((), queue ++ [⟨destination, size, asn⟩], asn), fun _ => rfl⟩

theorem routine_popFrame : Routine (popFrame : Mac κ → Option Frame × Mac κ) := by
  refine ⟨fun queue asn => (queue.head?, queue.tail, asn), ?_⟩
  rintro ⟨_, _, _, _, _, _, _, queue, _, _⟩
  cases queue <;> rfl

end Mac
end TschLearning
