import TschLearning.Proofs.Mac.Schedules
import TschLearning.Proofs.Mac.WellFormed
import TschLearning.Proofs.Number

/-! MAC layers that never leave their slotframe. The dimensions are whatever they were made with,
and the calls of the interface come with any arguments: what is out of range is turned away before
anything is written, so links, capacity and hopping sequence stay as they have to be, and with them
the channel of every slot. -/

namespace TschLearning

/-! ### Bounds -/

namespace Datum

theorem number?_of_same {x y : Datum} {m : Number} (hx : x.number? = some m)
    (h : same x y = true) : ∃ n, y.number? = some n ∧ m.same n = true := by
  cases hy : y.number? with
  | none => cases x <;> cases y <;> simp_all [same, number?]
  | some n =>
    refine ⟨n, rfl, ?_⟩
    cases x <;> cases y <;> simp_all [same, number?]

variable {bound other : Datum} {i j : Int}

/-- Equal bounds leave the same room. -/
theorem Bounds.of_same (h : bound.Bounds i) (hsame : same bound other = true) :
    other.Bounds i := by
  obtain ⟨h0, m, hm, hlt⟩ := h
  obtain ⟨n, hn, hmn⟩ := number?_of_same hm hsame
  exact ⟨h0, n, hn, by rwa [← Number.lt_congr hmn]⟩

/-- What is within a bound is within an integer that equals it. -/
theorem Bounds.lt_of_same (h : bound.Bounds i) (hsame : same (.int j) bound = true) :
    i < j := by
  obtain ⟨-, m, hm, hlt⟩ := h
  obtain ⟨n, hn, hjn⟩ := number?_of_same rfl hsame
  rw [hm, Option.some.injEq] at hn
  exact Number.lt_of_lt_of_same hlt (hn ▸ hjn)

end Datum

namespace Mac

variable {κ : Type} {m m' : Mac κ}

/-- Owned slots, links and hopping sequence lie within the slotframe, and the link table within
its capacity. -/
structure Confined (m : Mac κ) : Prop where
  owned_bounds : ∀ s ∈ m.owned, m.slots.Bounds s
  distinct : m.links.Distinct
  covers : ∀ e ∈ m.links.entries, m.Covers e.1 e.2
  size_le : ∀ k : Int, m.capacity = some (.int k) → (m.links.size : Int) ≤ max 0 k
  sequence_fits : ∀ cs, m.sequence = some cs →
    Datum.same (.int cs.length) m.slots = true ∧ ∀ c ∈ cs, m.channels.Bounds c

/-! ### Construction -/

theorem bounds_of_lt_steps {slots : Datum} {n s : Nat} (h : slots.steps = .ok n) (hs : s < n) :
    slots.Bounds s := by
  cases slots with
  | int i =>
    simp only [Datum.steps] at h
    split at h
    · cases h
    · cases h
      rw [Datum.bounds_int]
      omega
  | bool b =>
    cases h
    have hlt : s < if b then 1 else 0 := hs
    refine ⟨Int.natCast_nonneg s, _, rfl, ?_⟩
    rw [Number.lt_int, decide_eq_true_iff]
    cases b with
    | false => exact absurd hlt (Nat.not_lt_zero s)
    | true => exact Int.ofNat_lt.2 hlt
  | _ => cases h

/-- What a new MAC layer owns is within its slotframe, and its schedule is empty. -/
theorem create_eq_ok {name slots channels : Datum} {owned : Option (List Datum)}
    {capacity : Option Datum} (h : create name slots channels owned capacity = .ok m) :
    ∃ checked : List Nat, (∀ s ∈ checked, slots.Bounds s) ∧ m = {
      name, slots, channels, owned := checked, capacity, links := .empty, sequence := none,
      queue := [], sink := none, asn := none } := by
  unfold create at h
  cases owned with
  | none =>
    obtain ⟨n, hn, h⟩ := bind_eq_ok.1 h
    cases h
    exact ⟨List.range n, fun s hs => bounds_of_lt_steps hn (List.mem_range.1 hs), rfl⟩
  | some items =>
    obtain ⟨checked, hchecked, h⟩ := bind_eq_ok.1 h
    cases h
    refine ⟨checked.foldr insertOwned [], fun s hs => ?_, rfl⟩
    rw [mem_foldr_insertOwned] at hs
    obtain ⟨-, hall⟩ := mapM_eq_ok hchecked
    obtain ⟨d, -, hd⟩ := hall s hs
    exact (checkIndexBelow_eq_ok hd).2

theorem confined_create {name slots channels : Datum} {owned : Option (List Datum)}
    {capacity : Option Datum} (h : create name slots channels owned capacity = .ok m) :
    m.Confined := by
  obtain ⟨checked, hchecked, rfl⟩ := create_eq_ok h
  refine ⟨hchecked, Links.distinct_empty, fun e he => absurd he List.not_mem_nil, fun k _ => ?_,
    fun cs hcs => by cases hcs⟩
  exact le_max_left 0 k

/-! ### Calls of the interface -/

theorem Confined.erase (h : m.Confined) (s : Int) : (m.withLinks (m.links.erase s)).Confined :=
  { h with
    distinct := Links.distinct_erase h.distinct s
    covers := fun e he => h.covers e (List.mem_of_mem_filter he)
    size_le := fun k hk =>
      (Int.ofNat_le.2 (Links.size_erase_le m.links s)).trans (h.size_le k hk) }

/-- A link comes into its slot in place of another one, or if there is room. -/
theorem Confined.insert (h : m.Confined) {s c : Int} (hcovers : m.Covers s c)
    (hroom : m.links.contains s = true ∨ isFull m.capacity m.links.size = .ok false) :
    (m.withLinks (m.links.insert s c)).Confined :=
  { h with
    distinct := Links.distinct_insert h.distinct s c
    covers := fun e he => by
      rcases Links.mem_entries_insert he with rfl | he
      · exact hcovers
      · exact h.covers e he
    size_le := fun k hk => by
      rw [links_withLinks]
      cases hcontains : m.links.contains s with
      | true =>
        rw [Links.size_insert_of_contains hcontains]
        exact h.size_le k hk
      | false =>
        have hfull := hroom.resolve_left (by rw [hcontains]; exact Bool.false_ne_true)
        rw [show m.capacity = some (.int k) from hk, isFull_int, Except.ok.injEq,
          decide_eq_false_iff_not] at hfull
        rw [Links.size_insert_of_not_contains hcontains]
        omega }

/-- The calls of the interface, with any arguments, keep a MAC layer within its slotframe. -/
theorem Edited.confined {frames : List Frame} (h : Edited m frames m') (hm : m.Confined) :
    m'.Confined := by
  induction h with
  | refl => exact hm
  | deleteLink _ he ih =>
    obtain ⟨s, rfl, -⟩ := deleteLink_eq he
    exact ih.erase s
  | addLink _ he ih =>
    obtain ⟨s, c, hs, hc, hroom, rfl⟩ := addLink_eq he
    exact ih.insert ⟨(checkIndexBelow_eq_ok hs).2, (checkIndexBelow_eq_ok hc).2⟩ hroom
  | setSequence _ he ih =>
    obtain ⟨cs, hcs, rfl⟩ := setSequence_eq he
    refine { ih with sequence_fits := fun cs' hcs' => ?_ }
    obtain rfl := Option.some.inj hcs'
    exact checkSequence_eq_ok hcs
  | request destination size _ ih => exact { ih with }

/-! ### The channel of a slot -/

theorem Confined.bounds_of_contains (h : m.Confined) {s : Int}
    (hs : m.links.contains s = true) : m.slots.Bounds s := by
  obtain ⟨c, hc⟩ := Option.isSome_iff_exists.1 hs
  exact (h.covers (s, c) ((Links.mem_entries_iff h.distinct s c).2 hc)).1

/-- Whatever channel a MAC layer would transmit on is one of the slotframe. -/
theorem Confined.bounds_of_channelIn (h : m.Confined) {s c : Int} (hc : m.channelIn s = some c) :
    m.channels.Bounds c := by
  unfold channelIn at hc
  split at hc
  · cases hc
  · cases hlink : m.links.channel? s with
    | some c' =>
      simp only [hlink, Option.some.injEq] at hc
      exact hc ▸ (h.covers (s, c') ((Links.mem_entries_iff h.distinct s c').2 hlink)).2
    | none =>
      simp only [hlink] at hc
      obtain ⟨cs, hcs, hget⟩ := Option.bind_eq_some_iff.1 hc
      exact (h.sequence_fits cs hcs).2 c (List.mem_of_getElem? hget)

theorem Confined.bounds_of_channelFor (h : m.Confined) {slot : Datum} {c : Int}
    (hc : m.channelFor slot = .ok (some c)) : m.channels.Bounds c := by
  cases slot with
  | int i => exact h.bounds_of_channelIn (Except.ok.inj hc)
  | bool b => exact h.bounds_of_channelIn (Except.ok.inj hc)
  | float x =>
    simp only [channelFor, channelNear] at hc
    split at hc
    · cases hc
    · split at hc
      · cases hc
      · exact h.bounds_of_channelIn (Except.ok.inj hc)
  | _ => cases hc

/-- A hopping sequence reaches every slot that is owned. -/
theorem Confined.exists_channelIn (h : m.Confined) {s : Nat} (howned : s ∈ m.owned)
    (hseq : m.sequence.isSome = true) : ∃ c, m.channelIn s = some c := by
  obtain ⟨cs, hcs⟩ := Option.isSome_iff_exists.1 hseq
  have hlt : s < cs.length :=
    Int.ofNat_lt.1 ((h.owned_bounds s howned).lt_of_same (h.sequence_fits cs hcs).1)
  rw [channelIn_natCast, if_pos (by simpa using howned), hcs]
  cases m.links.channel? s with
  | some c => exact ⟨c, rfl⟩
  | none => exact ⟨cs[s], by simp [hlt]⟩

end Mac
end TschLearning
