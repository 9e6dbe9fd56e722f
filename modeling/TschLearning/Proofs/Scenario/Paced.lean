import TschLearning.Proofs.Network.Staged
import TschLearning.Proofs.Scenario.Fitted

/-! The pace of a device that may transmit in every slot. A frame is requested at the start of a
slotframe and sent in the slot that the scheduler has chosen for it, so it is gone before the next
one is requested. -/

namespace TschLearning

/-- A frame can still be in the queue in a slot, counted from the start of the slotframe, if it
is to be sent in the slot `action`. -/
def Stage.Awaits (slot : Nat) (action : Int) : Stage → Prop
  | .resting | .announced => 0 < slot ∧ slot ≤ action
  | .begun => slot ≤ action
  | .silent => slot < action
  | .sent _ | .told .. | .over => False

namespace Star

open SlotSelection

variable {ρ : Type} {slots i asn : Nat} {x : Stage} {left : List (Nat × Frame)} {mac mac' : Mac Nat}
  {a b : SlotSelection Nat Float}

/-- The start of the slotframe that a slot belongs to. -/
def startOf (slots asn : Nat) : Nat := asn - asn % slots

theorem sub_startOf (slots asn : Nat) : asn - startOf slots asn = asn % slots :=
  Nat.sub_sub_self (Nat.mod_le asn slots)

/-- A frame that was requested at the start of the slotframe, and is known to the scheduler. -/
def Current (slots asn : Nat) (a : SlotSelection Nat Float) (f : Frame) : Prop :=
  f.asn = some (startOf slots asn) ∧ a.requested = some (startOf slots asn)

/-- A device and its scheduler in a slot. -/
structure Paced (slots i asn : Nat) (x : Stage) (left : List (Nat × Frame)) (mac : Mac Nat)
    (a : SlotSelection Nat Float) : Prop where
  known : x.isKnown → mac.asn = some asn
  reached : x.isBegun → a.asn = some asn
  later : x.isBegun = false → ∀ last, a.asn = some last → last < asn
  -- there is at most one frame in the queue
  queue : mac.queue = [] ∨ ∃ f, mac.queue = [f] ∧ Current slots asn a f ∧
    mac.links.channel? a.action = some 0 ∧ x.Awaits (asn % slots) a.action
  -- a frame on its way was sent in the slot that the scheduler has chosen
  flight : ∀ channel, x = .sent channel → channel = 0 ∧ mac.queue = [] ∧
    ((asn % slots : Nat) : Int) = a.action ∧
      ∃ f, left.lookup i = some f ∧ Current slots asn a f

namespace Paced

theorem of_lookup_eq (h : Paced slots i asn x left mac a) {left' : List (Nat × Frame)}
    (he : left'.lookup i = left.lookup i) : Paced slots i asn x left' mac a :=
  { h with flight := by rw [he]; exact h.flight }

theorem kin (h : Paced slots i asn x left mac a) (hab : a.Kin b) :
    Paced slots i asn x left mac b := by
  obtain ⟨table, peaking, epsilon, activation, rfl, -⟩ := hab
  exact ⟨h.known, h.reached, h.later, h.queue, h.flight⟩

theorem announce (h : Paced slots i asn .resting left mac a) :
    Paced slots i asn .announced left { mac with asn := some asn } a where
  known _ := rfl
  reached := nofun
  later _ := h.later rfl
  queue := h.queue
  flight _ := nofun

theorem begin (h : Paced slots i asn .announced left mac a)
    (hb : Begins slots asn mac a mac' b) : Paced slots i asn .begun left mac' b := by
  cases hb with
  | within hasn hkin =>
    refine kin ?_ hkin
    refine ⟨fun _ => h.known rfl, fun _ => rfl, nofun, ?_, fun _ => nofun⟩
    refine h.queue.imp_right ?_
    rintro ⟨f, hqueue, hf, hlink, -, hle⟩
    exact ⟨f, hqueue, hf, hlink, hle⟩
  | start hasn hkin =>
    refine kin ?_ hkin
    refine ⟨fun _ => h.known rfl, fun _ => rfl, nofun, .inl ?_, fun _ => nofun⟩
    rcases h.queue with hqueue | ⟨f, -, -, -, hpos, -⟩
    · exact hqueue
    · exact absurd hasn (Nat.ne_of_gt hpos)
  | @request _ slot d l destination size hasn hlink hkin =>
    -- a frame of the slotframe before was due in one of its slots
    have hempty : mac.queue = [] := by
      rcases h.queue with hqueue | ⟨f, -, -, -, hpos, -⟩
      · exact hqueue
      · exact absurd hasn (Nat.ne_of_gt hpos)
    have hstart : startOf slots asn = asn := by rw [startOf, hasn, Nat.sub_zero]
    refine kin ?_ hkin
    refine ⟨fun _ => h.known rfl, fun _ => rfl, nofun, .inr ?_, fun _ => nofun⟩
    refine ⟨Frame.mk destination size mac.asn, ?_, ⟨?_, ?_⟩, hlink, ?_⟩
    · show mac.queue ++ [Frame.mk destination size mac.asn] = _
      rw [hempty, List.nil_append]
    · rw [hstart]
      exact h.known rfl
    · rw [hstart]
      rfl
    · show ((asn % slots : Nat) : Int) ≤ slot
      rw [hasn]
      exact Int.natCast_nonneg slot

theorem idle (h : Paced slots i asn .begun left mac a) (hqueue : mac.queue = []) :
    Paced slots i asn .silent left mac a :=
  ⟨fun _ => h.known rfl, fun _ => h.reached rfl, nofun, .inl hqueue, fun _ => nofun⟩

theorem pass (h : Paced slots i asn .begun left mac a)
    (hlink : mac.links.channel? (asn % slots : Nat) = none) :
    Paced slots i asn .silent left mac a := by
  refine ⟨fun _ => h.known rfl, fun _ => h.reached rfl, nofun, ?_, fun _ => nofun⟩
  refine h.queue.imp_right ?_
  rintro ⟨f, hqueue, hf, hchosen, hle⟩
  -- the link is in the slot that the frame is due in, which is still to come then
  have hne : ((asn % slots : Nat) : Int) ≠ a.action := by
    intro he
    rw [he, hchosen] at hlink
    cases hlink
  exact ⟨f, hqueue, hf, hchosen, Int.lt_iff_le_and_ne.2 ⟨hle, hne⟩⟩

theorem send (h : Paced slots i asn .begun left mac a) {f : Frame} {rest : List Frame}
    (hqueue : mac.queue = f :: rest) {channel : Int}
    (hlink : ((asn % slots : Nat) : Int) = a.action ∧ channel = 0) :
    rest = [] ∧
      Paced slots i asn (.sent channel) ((i, f) :: left) { mac with queue := rest } a := by
  obtain hnone | ⟨f', hone, hf, -, -⟩ := h.queue
  · rw [hqueue] at hnone
    cases hnone
  · obtain ⟨rfl, rfl⟩ := List.cons.inj (hqueue.symm.trans hone)
    refine ⟨rfl, fun _ => h.known rfl, fun _ => h.reached rfl, nofun, .inl rfl, ?_⟩
    rintro _ ⟨⟩
    exact ⟨hlink.2, rfl, hlink.1, f, List.lookup_cons_self, hf⟩

theorem settle {channel : Int} (h : Paced slots i asn (.sent channel) left mac a) (success : Bool) :
    Paced slots i asn (.told channel success) left mac (a.counting success) where
  known _ := h.known rfl
  reached _ := by
    have hasn := h.reached rfl
    unfold SlotSelection.counting
    split
    · rw [confirmed_eq hasn]
      exact hasn
    · exact hasn
  later := nofun
  queue := .inl (h.flight channel rfl).2.1
  flight _ := nofun

/-- A success is confirmed in the slot that the frame was sent in. -/
theorem counting_eq {channel : Int} (h : Paced slots i asn (.sent channel) left mac a)
    (success : Bool) :
    a.counting success = { a with
      successes := a.successes + success.toNat
      delay := a.delay + if success then asn % slots else 0
      requested := if success then none else a.requested } := by
  obtain ⟨-, -, -, f, -, -, hrequested⟩ := h.flight channel rfl
  cases success with
  | false => rfl
  | true =>
    show a.confirmed = _
    rw [confirmed_eq (h.reached rfl), hrequested, Option.map_some, Option.getD_some, sub_startOf]
    rfl

theorem record {channel : Int} {success : Bool}
    (h : Paced slots i asn (.told channel success) left mac a) :
    Paced slots i asn .over left mac a := by
  refine ⟨fun _ => h.known rfl, fun _ => h.reached rfl, nofun, .inl ?_, fun _ => nofun⟩
  rcases h.queue with hqueue | ⟨_, -, -, -, hnever⟩
  · exact hqueue
  · exact hnever.elim

theorem next (h : Paced slots i asn x left mac a) (hx : x = .silent ∨ x = .over)
    (haction : a.action < slots) : Paced slots i (asn + 1) .resting left mac a := by
  have hbegun : x.isBegun = true := by rcases hx with rfl | rfl <;> rfl
  refine ⟨nofun, nofun, fun _ last hlast => ?_, ?_, fun _ => nofun⟩
  · rw [h.reached hbegun, Option.some.injEq] at hlast
    omega
  · refine h.queue.imp_right ?_
    rintro ⟨f, hqueue, hf, hchosen, hawaits⟩
    rcases hx with rfl | rfl
    · -- the slot chosen is one of the slotframe, so the next slot is too
      have hlt : ((asn % slots : Nat) : Int) < a.action := hawaits
      have hmod : (asn + 1) % slots = asn % slots + 1 := by
        rw [← Nat.mod_add_mod, Nat.mod_eq_of_lt (by omega)]
      have hstart : startOf slots (asn + 1) = startOf slots asn := by
        unfold startOf
        omega
      refine ⟨f, hqueue, ?_, hchosen, ?_, ?_⟩
      · unfold Current
        rwa [hstart]
      · omega
      · omega
    · exact hawaits.elim

end Paced

end Star
end TschLearning
