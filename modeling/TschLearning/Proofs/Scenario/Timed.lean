import TschLearning.Proofs.Network.Staged
import TschLearning.Proofs.Scenario.Accounts
import TschLearning.Proofs.Scenario.Events
import TschLearning.Proofs.Scenario.Requests

/-! How long the frames of a device wait for their confirmation, beside what its scheduler makes of
it. The scheduler knows one request only, the last one. -/

namespace TschLearning
namespace Star

variable {ρ α : Type}

/-- How long the frame that a device gave up last has waited, at the slot that the device knows. -/
def wait (i : Nat) (w : Watched ρ α) : Int :=
  match w.2.macs[i]?.bind Mac.asn, (w.1.lookup i).bind Frame.asn with
  | some asn, some requested => asn - requested
  | _, _ => 0

/-- The frames of a device that a scheduler was told of as successes waited so long, summed up. -/
def waits (i k : Nat) (trace : List (Event ρ α)) : Int :=
  overSuccesses k (fun e => wait i e.before) trace

/-- Whenever a scheduler was told of a success, its device had no frame left. -/
def Prompt (i k : Nat) (trace : List (Event ρ α)) : Prop :=
  ∀ e ∈ trace, e.delivery.Confirms k → ∀ mac, e.before.2.macs[i]? = some mac → mac.queue = []

theorem prompt_concat {i k : Nat} {trace : List (Event ρ α)} {e : Event ρ α} :
    Prompt i k (trace ++ [e]) ↔ Prompt i k trace ∧
      (e.delivery.Confirms k → ∀ mac, e.before.2.macs[i]? = some mac → mac.queue = []) := by
  unfold Prompt
  constructor
  · intro h
    exact ⟨fun d hd => h d (List.mem_append_left _ hd),
      h e (List.mem_append_right _ List.mem_cons_self)⟩
  · rintro ⟨h, he⟩ d hd
    rcases List.mem_append.1 hd with hd | hd
    · exact h d hd
    · obtain rfl := List.mem_singleton.1 hd
      exact he

/-- A device with its scheduler in a slot: the account of the scheduler is balanced. -/
structure Timed (i asn : Nat) (x : Stage) (left : List (Nat × Frame)) (mac : Mac Nat)
    (a : SlotSelection Nat α) (due : Int) (prompt : Prop) : Prop where
  mac_eq : a.mac = i
  known : x.isKnown → mac.asn = some asn
  reached : x.isBegun → a.asn = some asn
  balanced : ∃ flight dates,
    (if x.isSent then ∃ f, left.lookup i = some f ∧ flight = [f] else flight = []) ∧
      (flight ++ mac.queue).map Frame.asn = dates.map some ∧
      Balanced (if x.isBegun then asn + 1 else asn) dates a.requested a.delay due prompt

namespace Timed

variable {i asn : Nat} {x : Stage} {left : List (Nat × Frame)} {mac : Mac Nat}
  {a b : SlotSelection Nat α} {due : Int} {prompt : Prop}

theorem relink (h : Timed i asn x left mac a due prompt) (hb : b.account = a.account)
    (l : Links) : Timed i asn x left (mac.withLinks l) b due prompt := by
  simp only [SlotSelection.account, Prod.mk.injEq] at hb
  obtain ⟨hmac, hasn, hrequested, hdelay⟩ := hb
  exact {
    mac_eq := hmac.trans h.mac_eq
    known := h.known
    reached := fun hx => hasn.trans (h.reached hx)
    balanced := by rw [hrequested, hdelay]; exact h.balanced }

theorem of_lookup_eq (h : Timed i asn x left mac a due prompt) {left' : List (Nat × Frame)}
    (he : left'.lookup i = left.lookup i) : Timed i asn x left' mac a due prompt :=
  { h with balanced := by rw [he]; exact h.balanced }

theorem announce (h : Timed i asn .resting left mac a due prompt) :
    Timed i asn .announced left { mac with asn := some asn } a due prompt :=
  { h with known := fun _ => rfl, reached := nofun }

theorem reach (h : Timed i asn .announced left mac a due prompt)
    (hb : b.account = ({ a with asn := some asn } : SlotSelection Nat α).account) (l : Links) :
    Timed i asn .begun left (mac.withLinks l) b due prompt := by
  have hbase : Timed i asn .begun left mac { a with asn := some asn } due prompt := by
    obtain ⟨flight, dates, hflight, hdates, hbal⟩ := h.balanced
    exact {
      mac_eq := h.mac_eq
      known := h.known
      reached := fun _ => rfl
      balanced := ⟨flight, dates, hflight, hdates, hbal.weaken (Nat.le_succ asn)⟩ }
  exact hbase.relink hb l

theorem request (h : Timed i asn .announced left mac a due prompt)
    (hb : b.account = (SlotSelection.asking { a with asn := some asn }).account) (l : Links)
    (destination size : Datum) :
    Timed i asn .begun left ((mac.withLinks l).request destination size) b due prompt := by
  have hbase : Timed i asn .begun left (mac.request destination size)
      (SlotSelection.asking { a with asn := some asn }) due prompt := by
    obtain ⟨flight, dates, hflight, hdates, hbal⟩ := h.balanced
    refine ⟨h.mac_eq, h.known, fun _ => rfl, flight, dates ++ [asn], hflight, ?_, hbal.request⟩
    show (flight ++ (mac.queue ++ [Frame.mk destination size mac.asn])).map Frame.asn = _
    rw [← List.append_assoc, List.map_append, hdates, List.map_append, h.known rfl]
    rfl
  exact hbase.relink hb l

/-- A stage without a frame on its way after another one. -/
theorem next (h : Timed i asn x left mac a due prompt) {y : Stage} (hsent : x.isSent = false)
    (hsent' : y.isSent = false) (hknown : x.isKnown = true) (hbegun : x.isBegun = y.isBegun) :
    Timed i asn y left mac a due prompt := by
  obtain ⟨flight, dates, hflight, hdates, hbal⟩ := h.balanced
  refine ⟨h.mac_eq, fun _ => h.known hknown, fun hy => h.reached (hbegun.trans hy), flight, dates,
    ?_, hdates, hbegun ▸ hbal⟩
  rw [hsent', ← hsent]
  exact hflight

theorem pass (h : Timed i asn x left mac a due prompt) (hsent : x.isSent = false)
    (hbegun : x.isBegun = true) : Timed i (asn + 1) .resting left mac a due prompt := by
  obtain ⟨flight, dates, hflight, hdates, hbal⟩ := h.balanced
  rw [hsent] at hflight
  rw [hbegun] at hbal
  exact ⟨h.mac_eq, nofun, nofun, flight, dates, hflight, hdates, hbal⟩

theorem send (h : Timed i asn .begun left mac a due prompt) {f : Frame} {rest : List Frame}
    (hqueue : mac.queue = f :: rest) (channel : Int) :
    Timed i asn (.sent channel) ((i, f) :: left) { mac with queue := rest } a due prompt := by
  obtain ⟨flight, dates, rfl, hdates, hbal⟩ := h.balanced
  refine ⟨h.mac_eq, h.known, h.reached, [f], dates, ⟨f, List.lookup_cons_self, rfl⟩, ?_, hbal⟩
  rw [← hdates, hqueue]
  rfl

theorem lose {channel : Int} (h : Timed i asn (.sent channel) left mac a due prompt)
    (hb : b.account = a.account) (l : Links) :
    Timed i asn (.told channel false) left (mac.withLinks l) b due prompt := by
  have hbase : Timed i asn (.told channel false) left mac a due prompt := by
    obtain ⟨flight, dates, ⟨f, -, rfl⟩, hdates, hbal⟩ := h.balanced
    cases dates with
    | nil => cases hdates
    | cons n dates =>
      exact ⟨h.mac_eq, h.known, h.reached, [], dates, rfl, (List.cons.inj hdates).2, hbal.fail⟩
  exact hbase.relink hb l

theorem confirm {channel : Int} {s : Star ρ α}
    (h : Timed i asn (.sent channel) left mac a due prompt) (hmac : s.macs[i]? = some mac)
    (hb : b.account = a.confirmed.account) (l : Links) :
    Timed i asn (.told channel true) left (mac.withLinks l) b (due + wait i (left, s))
      (prompt ∧ mac.queue = []) := by
  have hbase : Timed i asn (.told channel true) left mac a.confirmed (due + wait i (left, s))
      (prompt ∧ mac.queue = []) := by
    obtain ⟨flight, dates, ⟨f, hleft, rfl⟩, hdates, hbal⟩ := h.balanced
    cases dates with
    | nil => cases hdates
    | cons n dates =>
      obtain ⟨hf, hrest⟩ : f.asn = some n ∧ mac.queue.map Frame.asn = dates.map some :=
        List.cons.inj hdates
      have hwait : wait i (left, s) = (asn : Int) - n := by
        simp only [wait, hmac, hleft, Option.bind_some, h.known rfl, hf]
      have hempty : mac.queue = [] ↔ dates = [] := by
        rw [← List.map_eq_nil_iff (f := Frame.asn), hrest, List.map_eq_nil_iff]
      rw [hwait, hempty, SlotSelection.confirmed_eq (h.reached rfl)]
      exact ⟨h.mac_eq, h.known, h.reached, [], dates, rfl, hrest, hbal.confirm⟩
  exact hbase.relink hb l

end Timed

end Star
end TschLearning
