import TschLearning.Proofs.Mac.Interface
import TschLearning.Proofs.Network.Accepted
import TschLearning.Proofs.Scheduler.Clock
import TschLearning.Proofs.Testbed.Accounts

/-! Simulated MAC layers of a testbed, called with anything whatever. Calls that fail leave them as
they were, the others keep them within their slotframe. -/

namespace TschLearning.Testbed

open TschLearning.Action

/-- A call of a simulated MAC layer, with arguments as they were handed over. -/
inductive DeviceCall where
  | deleteLink (slot : Datum)
  | addLink (slot channel : Datum)
  | setSequence (channels : Datum)
  | checkSequence (channels : Datum)
  | requestFrame (destination size : Datum)

def DeviceCall.run (handle : Nat) : DeviceCall → Action Testbed Unit
  | .deleteLink slot => Testbed.deleteLink handle slot
  | .addLink slot channel => Testbed.addLink handle slot channel
  | .setSequence channels => Testbed.setSequence handle channels
  | .checkSequence channels => Testbed.checkSequence handle channels
  | .requestFrame destination size => Testbed.requestFrame handle destination size

variable {handle : Nat} {t u : Testbed} {m m' : Mac SinkRef}

theorem get?_macs_put (hm : macs.get? handle t = some m) (m' : Mac SinkRef) :
    macs.get? handle (macs.put handle m' t) = some m' :=
  shelf_get?_put_self (fun _ _ => rfl) hm m'

/-- A device that is replaced by an edited one, or stays as it is if that fails. -/
theorem settles_macs_update {f : Mac SinkRef → Except Fault (Unit × Mac SinkRef)}
    (hm : macs.get? handle t = some m) (hf : ∀ b m', f m = .ok (b, m') → m.Edits m') :
    Settles (macs.update handle f) t fun r u => ∃ m', macs.get? handle u = some m' ∧
      m.Edits m' ∧ ∀ fault, r = .error fault → m' = m := by
  rw [Shelf.settles_update macs hm]
  cases hfm : f m with
  | error fault => exact ⟨m, hm, m.edits_refl, fun _ _ => rfl⟩
  | ok p => exact ⟨p.2, get?_macs_put hm p.2, hf p.1 p.2 hfm, fun _ h => by cases h⟩

/-- Every call edits the device, and one that fails leaves it as it was. -/
theorem DeviceCall.settles_run (call : DeviceCall) (hm : macs.get? handle t = some m) :
    Settles (call.run handle) t fun r u => ∃ m', macs.get? handle u = some m' ∧ m.Edits m' ∧
      ∀ fault, r = .error fault → m' = m := by
  cases call with
  | deleteLink slot =>
    show Settles (Testbed.deleteLink handle slot) t _
    unfold Testbed.deleteLink
    rw [settles_bind, Shelf.settles_read macs hm]
    dsimp only
    rw [settles_bind, Shelf.settles_update macs hm]
    cases hdelete : m.deleteLink slot with
    | error fault => exact ⟨m, hm, m.edits_refl, fun _ _ => rfl⟩
    | ok p =>
      obtain ⟨remark, m'⟩ := p
      have hput := get?_macs_put hm m'
      have hedits : m.Edits m' := ⟨_, Mac.Edited.refl.deleteLink hdelete⟩
      cases remark with
      | none => exact ⟨m', hput, hedits, fun _ h => by cases h⟩
      | some r =>
        obtain ⟨s, rfl, hnone⟩ := Mac.deleteLink_eq hdelete
        have hsame : m.withLinks (m.links.erase s) = m := by
          rw [Links.erase_of_not_contains (hnone rfl), Mac.withLinks_links]
        dsimp only
        rw [settles_note]
        split
        · exact ⟨_, hput, hedits, fun _ h => by cases h⟩
        · exact ⟨_, hput, hedits, fun _ _ => hsame⟩
  | addLink slot channel =>
    refine settles_macs_update hm fun _ m' h => ?_
    obtain ⟨m'', hadd, h⟩ := bind_eq_ok.1 h
    cases h
    exact ⟨_, Mac.Edited.refl.addLink hadd⟩
  | setSequence channels =>
    refine settles_macs_update hm fun _ m' h => ?_
    obtain ⟨items, -, h⟩ := bind_eq_ok.1 h
    obtain ⟨m'', hset, h⟩ := bind_eq_ok.1 h
    cases h
    exact ⟨_, Mac.Edited.refl.setSequence hset⟩
  | checkSequence channels =>
    refine settles_macs_update hm fun _ m' h => ?_
    obtain ⟨items, -, h⟩ := bind_eq_ok.1 h
    obtain ⟨_, -, h⟩ := bind_eq_ok.1 h
    cases h
    exact m.edits_refl
  | requestFrame destination size =>
    show Settles (macs.update handle fun m => .ok ((), m.request destination size)) t _
    refine settles_macs_update hm fun _ m' h => ?_
    cases h
    exact ⟨_, Mac.Edited.refl.request destination size⟩

/-- The device is one that came out of another one by edits. -/
def Since (handle : Nat) (m : Mac SinkRef) (u : Testbed) : Prop :=
  ∃ m', macs.get? handle u = some m' ∧ m.Edits m'

theorem ends_deviceCalls (hm : macs.get? handle t = some m) (calls : List DeviceCall) :
    Ends (attemptEach (DeviceCall.run handle) calls) t fun _ u => Since handle m u := by
  have hstep : ∀ past : List DeviceCall, ∀ call ∈ calls, ∀ u, Since handle m u →
      Settles (DeviceCall.run handle call) u fun _ v => Since handle m v := by
    rintro past call - u ⟨m', hm', hedits⟩
    refine (call.settles_run hm').mono ?_
    rintro _ v ⟨m'', hm'', hnext, -⟩
    exact ⟨m'', hm'', m.edits_trans m' m'' hedits hnext⟩
  exact @ends_attemptEach _ _ _ _ (fun _ => Since handle m) calls hstep [] t
    ⟨m, hm, m.edits_refl⟩

theorem get?_of_newMac {name slots channels : Datum} {owned : Option (List Datum)}
    {capacity : Option Datum}
    (h : newMac name slots channels owned capacity t = .ok (.mac handle) u) :
    ∃ m, Mac.create name slots channels owned capacity = .ok m ∧
      macs.get? handle u = some m := by
  cases hcreate : Mac.create (κ := SinkRef) name slots channels owned capacity with
  | error fault =>
    simp only [newMac, hcreate] at h
    cases h
  | ok m =>
    simp only [newMac, hcreate] at h
    cases h
    exact ⟨m, rfl, Array.getElem?_push_size⟩

/-- The channel of a device for a slot is looked up in the device as it is. -/
theorem channelFor_eq (hm : macs.get? handle t = some m) (slot : Datum) {o : Option Int}
    {v : Testbed} : channelFor handle slot t = .ok o v ↔ m.channelFor slot = .ok o ∧ v = t := by
  have hread : macs.read handle t = .ok m t := by simp only [Shelf.read, hm]
  unfold Testbed.channelFor
  simp only [bind, EStateM.bind, hread]
  cases m.channelFor slot with
  | error fault => exact ⟨fun h => (by cases h), fun h => (by cases h.1)⟩
  | ok o' =>
    constructor
    · intro h
      cases h
      exact ⟨rfl, rfl⟩
    · rintro ⟨h, rfl⟩
      cases h
      rfl

/-- A link replaces another one in its slot, also in a full table. -/
theorem addLink_eq_ok (hm : macs.get? handle t = some m) {s c : Int} (h : m.Covers s c)
    (hs : m.links.contains s = true) : ∃ v, addLink handle (.int s) (.int c) t = .ok () v := by
  unfold Testbed.addLink Shelf.update
  rw [hm]
  simp only [Mac.addLink_of_contains h hs]
  exact ⟨_, rfl⟩

/-- A device stays within the slotframe that it was made for, whatever it is called with. Its links
are one a slot and no more than its capacity allows, all of them in slots and on channels of the
slotframe; its hopping sequence, if there is one, has a channel of it for every slot. A call that
fails leaves the device as it was, and a link can be replaced at any time. So in every slot the
device would transmit on a channel of the slotframe or on none, and a network that has accepted
the device always finds the failure probability of the channel. -/
theorem device_stays_in_slotframe {name slots channels : Datum} {owned : Option (List Datum)}
    {capacity : Option Int}
    (hnew : newMac name slots channels owned (capacity.map .int) t = .ok (.mac handle) u)
    (calls : List DeviceCall) :
    ∃ outcomes v m, attemptEach (DeviceCall.run handle) calls u = .ok outcomes v ∧
      macs.get? handle v = some m ∧ m.slots = slots ∧ m.channels = channels ∧
      (m.links.Distinct ∧ ∀ e ∈ m.links.entries, slots.Bounds e.1 ∧ channels.Bounds e.2) ∧
      (∀ k, capacity = some k → (m.links.size : Int) ≤ max 0 k) ∧
      (∀ cs, m.sequence = some cs →
        Datum.same (.int cs.length) slots = true ∧ ∀ c ∈ cs, channels.Bounds c) ∧
      (∀ call fault w, DeviceCall.run handle call v = .error fault w →
        macs.get? handle w = some m) ∧
      (∀ s c : Int, m.links.contains s = true → channels.Bounds c →
        ∃ w, addLink handle (.int s) (.int c) v = .ok () w) ∧
      (∀ s : Int, ∃ o, channelFor handle (.int s) v = .ok o v ∧ ∀ c ∈ o, channels.Bounds c) ∧
      (∀ s ∈ m.owned, m.sequence.isSome = true →
        ∃ c, channelFor handle (.int s) v = .ok (some c) v) ∧
      ∀ (net net' : Network Nat ObserverRef Float) (accepted : Mac SinkRef), net.SetUp →
        accepted.channels = channels → net.addMac handle accepted = .ok net' →
        ∀ slot c, channelFor handle slot v = .ok (some c) v →
          net'.interference.pick (.int c) ≠ .error .positionOutOfRange ∧
            (net'.interference.channels < addressable →
              ∃ p, net'.interference.pick (.int c) = .ok p) := by
  obtain ⟨made, hcreate, hmade⟩ := get?_of_newMac hnew
  obtain ⟨outcomes, v, hrun, m, hm, frames, hedited⟩ := ends_iff.1 (ends_deviceCalls hmade calls)
  have hconfined : m.Confined := hedited.confined (Mac.confined_create hcreate)
  obtain ⟨hslots, hchannels, hcapacity⟩ :
      m.slots = slots ∧ m.channels = channels ∧ m.capacity = capacity.map .int := by
    obtain ⟨checked, -, rfl⟩ := Mac.create_eq_ok hcreate
    obtain ⟨links, sequence, rfl⟩ := hedited.exists_eq
    exact ⟨rfl, rfl, rfl⟩
  subst hslots hchannels
  refine ⟨outcomes, v, m, hrun, hm, rfl, rfl, ⟨hconfined.distinct, hconfined.covers⟩, ?_,
    hconfined.sequence_fits, ?_, ?_, ?_, ?_, ?_⟩
  · rintro k rfl
    exact hconfined.size_le k hcapacity
  · intro call fault w hfault
    obtain ⟨m', hm', -, hsame⟩ := (call.settles_run hm).error hfault
    exact hsame fault rfl ▸ hm'
  · intro s c hs hc
    exact addLink_eq_ok hm ⟨hconfined.bounds_of_contains hs, hc⟩ hs
  · intro s
    exact ⟨m.channelIn s, (channelFor_eq hm _).2 ⟨rfl, rfl⟩,
      fun c hc => hconfined.bounds_of_channelIn hc⟩
  · intro s hs hseq
    obtain ⟨c, hc⟩ := hconfined.exists_channelIn hs hseq
    exact ⟨c, (channelFor_eq hm _).2 ⟨congrArg Except.ok hc, rfl⟩⟩
  · intro net net' accepted hnet hchannels hadd slot c hc
    obtain ⟨hc, -⟩ := (channelFor_eq hm slot).1 hc
    have hbounds := hconfined.bounds_of_channelFor hc
    exact Interference.pick_of_lt hbounds.1 (hnet.lt_of_addMac hadd (hchannels ▸ hbounds))

/-- A device with room for one link, called with a slot and a sequence that do not fit and with one
link too many, in a network of its slotframe. -/
theorem device_stays_in_slotframe_of_four_slots :
    let calls : List DeviceCall := [.addLink (.int 4) (.int 0), .addLink (.int 1) (.int 2),
      .addLink (.int 3) (.int 0), .setSequence (.list (Datum.ofInts [0, 1])),
      .setSequence (.list (Datum.ofInts [0, 1, 2, 0])), .deleteLink (.bool true)]
    ∃ u, newMac (.text "node") (.int 4) (.int 3) none (some (.int 1)) (fresh none) =
        .ok (.mac 0) u ∧
      ∃ outcomes v m, attemptEach (DeviceCall.run 0) calls u = .ok outcomes v ∧
        macs.get? 0 v = some m ∧ (m.links.size : Int) ≤ 1 ∧
        ∃ net net' : Network Nat ObserverRef Float,
          Network.create (.int 4) (.int 3) none (.ok (.int 1)) (.ok 0.0) = .ok net ∧
          net.addMac 0 m = .ok net' ∧
          ∀ c, channelFor 0 (.int 1) v = .ok (some c) v →
            (0 ≤ c ∧ c < 3) ∧ net'.interference.pick (.int c) ≠ .error .positionOutOfRange := by
  intro calls
  obtain ⟨u, hnew⟩ : ∃ u, newMac (.text "node") (.int 4) (.int 3) none
      ((some 1 : Option Int).map .int) (fresh none) = .ok (.mac 0) u := ⟨_, rfl⟩
  obtain ⟨outcomes, v, m, hrun, hm, hslots, hchannels, -, hsize, -, -, -, hchannel, -, hpick⟩ :=
    device_stays_in_slotframe hnew calls
  obtain ⟨net, hnet⟩ : ∃ net : Network Nat ObserverRef Float,
      Network.create (.int 4) (.int 3) none (.ok (.int 1)) (.ok 0.0) = .ok net ∧
        net.slots = .int 4 ∧ net.channels = .int 3 := ⟨_, rfl, rfl, rfl⟩
  obtain ⟨hcreate, hnetSlots, hnetChannels⟩ := hnet
  have hadd : net.addMac 0 m = .ok { net with macs := net.macs ++ [0] } := by
    unfold Network.addMac
    rw [hslots, hchannels, hnetSlots, hnetChannels, Datum.same_int, Datum.same_int]
    rfl
  refine ⟨u, hnew, outcomes, v, m, hrun, hm, hsize 1 rfl, net, _, hcreate, hadd, fun c hc => ?_⟩
  obtain ⟨o, ho, hbounds⟩ := hchannel 1
  rw [hc] at ho
  cases ho
  exact ⟨(Datum.bounds_int 3 c).1 (hbounds c rfl),
    (hpick net _ m (.create hcreate) hchannels hadd _ c hc).1⟩

end TschLearning.Testbed
