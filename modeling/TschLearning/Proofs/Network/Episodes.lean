import TschLearning.Proofs.Network.Tame

/-! Accounts of single slots. An episode tells what every device finds once the boundary was
delivered, which numbers are drawn, and what the network does because of it, in order. -/

namespace TschLearning

variable {μ κ ο σ α : Type} [Arith α]

/-- The device once it was told the number of a slot. -/
def Mac.reached (m : Mac κ) (asn : Nat) : Mac κ := { m with asn := some asn }

theorem Mac.popFrame_fst (m : Mac κ) : m.popFrame.1 = m.queue.head? := by
  unfold popFrame
  cases m.queue <;> rfl

omit [Arith α] in
theorem Mac.queue_eq_popFrame (m : Mac κ) :
    m.queue = m.popFrame.1.toList ++ m.popFrame.2.queue := by
  unfold popFrame
  cases h : m.queue with
  | nil => simp [h]
  | cons f rest => rfl

omit [Arith α] in
/-- The failure probability that a channel picks out is the one of the channel. -/
theorem Interference.probability?_of_pick {model : Interference α} {c : Int} {p : α}
    (h : model.pick (.int c) = .ok p) : model.probability? c = some p := by
  simp only [pick, probabilityAt] at h
  split at h
  · cases h
  · cases hp : model.probability? c with
    | none =>
      rw [hp] at h
      cases h
    | some p' =>
      rw [hp] at h
      cases h
      rfl

/-- The turn of a device in a slot: the device after the boundaries, and the number that was drawn
for a frame of its own. -/
structure Turn (μ κ α : Type) where
  device : μ
  mac : Mac κ
  draw : Option α

namespace Turn

variable (traffic : α) (slot : Nat) (t : Turn μ κ α)

omit [Arith α] in
def channel? : Option Int := t.mac.channelIn slot

def gains : Bool := t.draw.any (Arith.lt · traffic)

/-- The frame of its own that the device gets, if any. -/
def generated : List Frame := if t.gains traffic then [⟨.null, .int 0, t.mac.asn⟩] else []

def supplied : Mac κ := if t.gains traffic then t.mac.request .null (.int 0) else t.mac

/-- The frame that the device sends: the first one of its queue, if it has a channel. -/
def sent? : Option Frame := (t.channel? slot).bind fun _ => (t.supplied traffic).queue.head?

/-- The device and the channel that it sends on. -/
def transmission? : Option (μ × Int) :=
  (t.channel? slot).bind fun c => (t.supplied traffic).queue.head?.map fun _ => (t.device, c)

def left : Mac κ := if (t.channel? slot).isSome then (t.supplied traffic).popFrame.2 else t.mac

def deeds : List (Deed μ κ ο α) :=
  if (t.channel? slot).isSome then
    t.draw.toList.map .drawn
      ++ (if t.gains traffic then [.set t.device (t.supplied traffic)] else [])
      ++ [.set t.device (t.left traffic slot)]
  else []

/-- A number is drawn if the device has a channel and frames are generated at all. -/
def Fair : Prop :=
  t.draw.isSome = true ↔ (t.channel? slot).isSome = true ∧ Arith.lt 0 traffic = true

variable {traffic slot t} in
theorem transmission?_eq_some_iff {i : μ} {c : Int} :
    t.transmission? traffic slot = some (i, c) ↔
      t.device = i ∧ t.channel? slot = some c ∧ (t.supplied traffic).queue ≠ [] := by
  unfold transmission?
  cases t.channel? slot with
  | none => simp
  | some d => cases (t.supplied traffic).queue <;> simp

theorem tended_left (slots channels : Nat) :
    t.mac.Tended slots channels (t.left traffic slot) := by
  have hsupplied : t.mac.Tended slots channels (t.supplied traffic) := by
    unfold supplied
    split
    · exact ⟨rfl, rfl, fun h => { h with }⟩
    · exact ⟨rfl, rfl, id⟩
  unfold left
  split
  · unfold Mac.popFrame
    split
    · exact hsupplied
    · exact ⟨hsupplied.1, hsupplied.2.1, fun h => { hsupplied.2.2 h with }⟩
  · exact ⟨rfl, rfl, id⟩

/-- Those who transmit have their turns, in order. -/
theorem sublist_transmissions (turns : List (Turn μ κ α)) :
    ((turns.filterMap (·.transmission? traffic slot)).map (·.1)).Sublist
      (turns.map (·.device)) := by
  induction turns with
  | nil => exact .slnil
  | cons t rest ih =>
    rw [List.filterMap_cons, List.map_cons]
    cases h : t.transmission? traffic slot with
    | none => exact ih.cons _
    | some e =>
      have hdevice : t.device = e.1 := (transmission?_eq_some_iff.1 h).1
      rw [hdevice]
      exact ih.cons_cons _

end Turn

/-- A channel is used once if it is used by none but one device. -/
theorem countP_le_one_iff {transmissions : List (μ × Int)}
    (hnodup : (transmissions.map (·.1)).Nodup) {e : μ × Int} (he : e ∈ transmissions) :
    transmissions.countP (·.2 == e.2) ≤ 1 ↔ ∀ d ∈ transmissions, d.2 = e.2 → d.1 = e.1 := by
  rw [List.countP_eq_length_filter]
  have hmem : ∀ d, d ∈ transmissions.filter (·.2 == e.2) ↔ d ∈ transmissions ∧ d.2 = e.2 := by
    intro d
    rw [List.mem_filter, beq_iff_eq]
  constructor
  · intro hlen d hd hchannel
    obtain ⟨f, hf⟩ : ∃ f, transmissions.filter (·.2 == e.2) = [f] := by
      have hpos := List.length_pos_of_mem ((hmem e).2 ⟨he, rfl⟩)
      exact List.length_eq_one_iff.1 (by omega)
    have hd' : d = f := by simpa [hf] using (hmem d).2 ⟨hd, hchannel⟩
    have he' : e = f := by simpa [hf] using (hmem e).2 ⟨he, rfl⟩
    rw [hd', he']
  · intro hsole
    have hsub : transmissions.filter (·.2 == e.2) ⊆ [e] := by
      intro d hd
      obtain ⟨hd, hchannel⟩ := (hmem d).1 hd
      exact List.mem_singleton.2 (Prod.ext (hsole d hd hchannel) hchannel)
    have hnodup' : (transmissions.filter (·.2 == e.2)).Nodup := (hnodup.of_map _).filter _
    exact (List.subperm_of_subset hnodup' hsub).length_le

/-- The confirmation of a transmission, with the number that was drawn for interference. -/
structure Confirmation (μ α : Type) where
  sender : μ
  channel : Int
  draw : Option α

namespace Confirmation

variable (net : Network μ ο α) (asn slot : Nat) (directory : Directory μ κ) (c : Confirmation μ α)

/-- A transmission succeeds if a number was drawn that is not below the failure probability. -/
def status : MacStatus :=
  match c.draw, net.interference.probability? c.channel with
  | some u, some p => if Arith.lt u p then .noAck else .success
  | _, _ => .noAck

def record : TransmissionRecord μ :=
  { asn, slot := .int slot, channel := c.channel, sender := c.sender
    senderName := directory.name c.sender, status := c.status net }

/-- What the network does: a draw, the outcome for the sink of the sender, and the record for the
observers. -/
def deeds : List (Deed μ κ ο α) :=
  c.draw.toList.map .drawn
    ++ (directory.sink c.sender).toList.map (fun k =>
      .delivered (.outcome k (.int slot) c.channel (c.record net asn slot directory).success) none)
    ++ net.observers.callees.map fun o =>
      .delivered (.record o (c.record net asn slot directory)) none

end Confirmation

/-- A slot, from the state before it to the one after it. -/
structure Episode (μ κ σ α : Type) where
  asn : Nat
  start : σ
  opened : σ
  finish : σ
  turns : List (Turn μ κ α)
  confirmations : List (Confirmation μ α)

namespace Network

variable [DecidableEq κ] [Journal σ]

omit [Arith α] [Journal σ] in
/-- The slot number is announced to all devices, and its boundary is delivered to all sinks. -/
def opening (env : Surroundings μ κ ο σ α) (net : Network μ ο α) : Action σ Unit := do
  announce env net.asn net.macs
  deliverBoundary env net.asn (← sinksOf env net.macs).eraseDups

end Network

namespace Episode

variable (env : Surroundings μ κ ο σ α) (net : Network μ ο α) (slots : Nat) (traffic : α)
  (directory : Directory μ κ) (e : Episode μ κ σ α)

omit [Arith α] in
def slot : Nat := e.asn % slots

omit [Arith α] in
def announcements : List (Deed μ κ ο α) :=
  net.macs.filterMap fun i => (env.macs.get? i e.start).map fun m => .set i (m.reached e.asn)

omit [Arith α] in
def boundaries [DecidableEq κ] : List (Deed μ κ ο α) :=
  (net.macs.filterMap directory.sink).eraseDups.map fun k => .delivered (.boundary k e.asn) none

omit [Arith α] in
/-- The sink of every device that did not transmit overhears activity, if there was any. -/
def overhearings [DecidableEq μ] : List (Deed μ κ ο α) :=
  if e.confirmations.isEmpty then []
  else ((net.macs.filter fun i => i ∉ e.confirmations.map (·.sender)).filterMap directory.sink).map
    fun k => .delivered (.overheard k (.int (e.slot slots))) none

def deeds [DecidableEq μ] [DecidableEq κ] : List (Deed μ κ ο α) :=
  e.announcements env net ++ e.boundaries net directory
    ++ e.turns.flatMap (·.deeds traffic (e.slot slots))
    ++ e.confirmations.flatMap (·.deeds net e.asn (e.slot slots) directory)
    ++ e.overhearings net slots directory

/-- The turns and the confirmations are those of the slot, once the boundaries were delivered. -/
structure Resolved : Prop where
  device_eq : e.turns.map (·.device) = net.macs
  mac_eq : ∀ t ∈ e.turns, env.macs.get? t.device e.opened = some t.mac
  fair : ∀ t ∈ e.turns, t.Fair traffic (e.slot slots)
  confirmed : e.confirmations.map (fun c => (c.sender, c.channel))
    = e.turns.filterMap (·.transmission? traffic (e.slot slots))
  drawn_iff : ∀ c ∈ e.confirmations, c.draw.isSome = true ↔
    ∀ d ∈ e.confirmations, d.channel = c.channel → d.sender = c.sender

/-- The episode is an account of a slot of the network. -/
structure Valid [DecidableEq μ] [DecidableEq κ] [Journal σ] : Prop
    extends Resolved env net slots traffic e where
  runs : Network.runSlot env { net with asn := e.asn } e.start
    = .ok { net with asn := e.asn + 1 } e.finish
  opens : Network.opening env { net with asn := e.asn } e.start = .ok () e.opened

omit [Arith α] in
/-- Devices change as the relations say: `early` between the announcement and the turns, `late`
after the turns. -/
structure Moved [Arith α] (early late : Mac κ → Mac κ → Prop) : Prop where
  opened : env.macs.Altered net.macs (fun m m' => early (m.reached e.asn) m') e.start e.opened
  finish : ∀ t ∈ e.turns, ∃ m, env.macs.get? t.device e.finish = some m ∧
    late (t.left traffic (e.slot slots)) m

end Episode
end TschLearning
