import TschLearning.Proofs.Network.Resolved
import TschLearning.Proofs.Scenario.Solo
import TschLearning.Proofs.Statistics

/-! The slots of a network whose devices take turns. In every slot the one device that owns it
transmits, if there is traffic, on the channel configured for the slot, and nobody else does. So
the slot goes as it would for the scheduler on its own. -/

namespace TschLearning

@[simp] theorem Sources.network_setNetwork {ρ : Type} (g : ρ) (s : Sources ρ) :
    (s.setNetwork g).network = g := by
  cases s <;> rfl

namespace Pan

open TschLearning.Action ChannelHopping

variable {ρ α : Type} {slots channels nodes : Nat} {x : Option (List Int)} {p q : Pan ρ α}
  {k : Solo ρ α}

/-- The transmission that a delivery records, with the network as it was then. -/
def Event.transmission? (e : Event ρ α) : Option (TransmissionRecord Nat × Pan ρ α) :=
  match e.delivery with
  | .record _ r => some (r, e.before)
  | _ => none

def transmissions (trace : List (Event ρ α)) : List (TransmissionRecord Nat × Pan ρ α) :=
  trace.filterMap Event.transmission?

theorem transmissions_concat (trace : List (Event ρ α)) (e : Event ρ α) :
    transmissions (trace ++ [e]) = transmissions trace ++ e.transmission?.toList := by
  rw [transmissions, List.filterMap_append, List.filterMap_cons, List.filterMap_nil]
  cases e.transmission? <;> rfl

variable [Arith α]

/-- A network attuned to a scheduler on its own: nothing but the devices is different, and the
scheduler has the configuration accepted last. -/
structure Attuned (params : Parameters α) (slots channels nodes : Nat) (x : Option (List Int))
    (p : Pan ρ α) (k : Solo ρ α) : Prop where
  mirrors : Mirrors slots channels nodes x p k
  ledger : ∃ l, Follows params slots channels l p.scheduler ∧ l.accepted = x.map Datum.ofInts

namespace Attuned

variable {params : Parameters α}

theorem valid (h : Attuned params slots channels nodes x p k) :
    p.scheduler.Valid slots channels := by
  obtain ⟨l, hl, -⟩ := h.ledger
  exact hl.valid

theorem replace (h : Attuned params slots channels nodes x p k) {l : Solo ρ α}
    (hm : Mirrors slots channels nodes x q l) (hs : q.scheduler = p.scheduler) :
    Attuned params slots channels nodes x q l where
  mirrors := hm
  ledger := by rw [hs]; exact h.ledger

/-- The channel of a slot in the configuration in force. -/
theorem channel_eq {cs : List Int} (h : Attuned params slots channels nodes (some cs) p k)
    {t : Nat} (ht : t < slots) :
    ∃ c : Nat, c < channels ∧ cs[t]? = some (c : Int) ∧
      channelAt? p.scheduler.configuration t = some (c : Int) := by
  obtain ⟨l, hl, hacc⟩ := h.ledger
  have hrange := h.mirrors.stands.inRange cs rfl
  have hlt : t < cs.length := hrange.1.symm ▸ ht
  have hfound : cs[t]? = some cs[t] := List.getElem?_eq_getElem hlt
  obtain ⟨h0, hc⟩ := hrange.2 cs[t] (List.getElem_mem hlt)
  obtain ⟨c, hcc⟩ := Int.eq_ofNat_of_zero_le h0
  refine ⟨c, by omega, by rw [hfound, hcc], ?_⟩
  rw [hl.configuration_eq _ hacc, channelAt?_ofInts, hfound, hcc]

variable [Generator ρ α]

/-! ### The scheduler and the generator of the network -/

/-- A slot boundary. From the first one on there is a configuration in force. -/
theorem twin_boundary (hsound : Generator.Sound ρ) (h : Attuned params slots channels nodes x p k)
    (hfirst : x = none → p.scheduler.asn = none) {asn : Nat}
    (hlater : ∀ last, p.scheduler.asn = some last → last < asn) :
    Twin (surroundings.boundary () asn)
      (Solo.inScheduler (onSlotBoundary Solo.needs (.int asn))) p k fun _ _ q l =>
        (∃ cs, Attuned params slots channels nodes (some cs) q l) ∧
          q.scheduler.asn = some asn ∧ q.scheduler.counts = p.scheduler.counts := by
  have hcoupled := coupled_solo (α := α) slots nodes hsound h.valid.channels_pos x
  have hstart : Backs slots channels nodes x [] p k :=
    ⟨fun d hd => absurd hd List.not_mem_nil, x, rfl, h.mirrors⟩
  have hcounts : Meets True (onSlotBoundary needs (.int asn)) (p.scheduler, p)
      fun _ => Counting p.scheduler.counts fun _ => True := by
    have hkeep : (needs (ρ := ρ) (α := α)).Keep fun _ => True :=
      ⟨fun _ => keeps_true _, keeps_true _, fun _ => keeps_true _, fun _ _ _ => trivial⟩
    exact ((keeps_onSlotBoundary hkeep (.int asn)).meets ⟨rfl, trivial⟩).mono fun _ _ hp => hp.2
  have hrun := (hcoupled.twin_onSlotBoundary hstart h.valid hlater).and_meets hcounts
  obtain rfl := h.mirrors.solo_eq
  refine twin_beside.2 (hrun.mono ?_)
  rintro _ _ ⟨_, q⟩ ⟨_, l⟩ ⟨⟨first, policy, hd, rfl, rfl, hall, x', hx', hmirrors⟩, hcount, -⟩
  obtain ⟨ledger, hl, hacc⟩ := h.ledger
  obtain ⟨haccepted, -⟩ :=
    Ledger.foldl_boundary params.deactivationThreshold slots asn ledger (first ++ policy)
  rw [List.nil_append] at hx'
  have hsome : x'.isSome = true := by
    rw [← Option.isSome_map (f := Datum.ofInts), hx', List.foldl_append]
    refine isSome_foldl_accepting ?_ policy
    cases x with
    | some cs => exact isSome_foldl_accepting rfl first
    | none =>
      have hone := hd.first_eq
      rw [hfirst rfl, Option.isNone_none, if_pos rfl] at hone
      obtain ⟨answer, rfl⟩ := hone
      have htrue : answer = true := hall ⟨p.scheduler.configuration, answer⟩ (by simp)
      subst htrue
      rfl
  obtain ⟨cs, rfl⟩ := Option.isSome_iff_exists.1 hsome
  refine ⟨⟨cs, hmirrors.reschedule _, _, hl.reached hd, ?_⟩, asn_reached .., hcount⟩
  rw [haccepted, hacc, ← hx']

theorem twin_outcome (hsound : Generator.Sound ρ) (h : Attuned params slots channels nodes x p k)
    {t c : Nat} (ht : t < slots) (hc : c < channels) (success : Bool) :
    Twin (surroundings.outcome () (.int t) c success)
      (Solo.inScheduler (recordOutcome (.int t) (.int c) success)) p k fun _ _ q l =>
        Attuned params slots channels nodes x q l ∧
          q.scheduler = p.scheduler.informed t c success ∧ q.sources = p.sources := by
  have hcoupled := coupled_solo (α := α) slots nodes hsound h.valid.channels_pos x
  have hstart : Backs slots channels nodes x [] p k :=
    ⟨fun d hd => absurd hd List.not_mem_nil, x, rfl, h.mirrors⟩
  have hsources : Meets True (recordOutcome (.int t) (.int c) success) (p.scheduler, p)
      fun _ => Counting (p.scheduler.counting success).counts
        fun r : Pan ρ α => r.sources = p.sources :=
    meets_recordOutcome (P := fun r : Pan ρ α => r.sources = p.sources) (fun _ _ hr => hr) rfl
      _ _ _
  have hrun := (hcoupled.twin_recordOutcome hstart h.valid ht hc success).and_meets hsources
  obtain rfl := h.mirrors.solo_eq
  refine twin_beside.2 (hrun.mono ?_)
  rintro _ _ ⟨_, q⟩ ⟨_, l⟩ ⟨⟨rfl, rfl, -, x', hx', hmirrors⟩, -, hq⟩
  obtain rfl := map_ofInts_injective hx'
  obtain ⟨ledger, hl, hacc⟩ := h.ledger
  exact ⟨⟨hmirrors.reschedule _, _, hl.informed ht hc success, hacc⟩, rfl, hq⟩

theorem twin_uniform (h : Attuned params slots channels nodes x p k) :
    Twin (surroundings (ρ := ρ) (α := α)).draws.uniform Solo.draws.uniform p k fun u v q l =>
      u = v ∧ Generator.uniform p.sources.network = (u, q.sources.network) ∧
        q = { p with sources := q.sources } ∧ Attuned params slots channels nodes x q l := by
  obtain rfl := h.mirrors.solo_eq
  refine twin_iff.2 ⟨_, _, _, _, rfl, rfl, rfl, ?_, rfl, ?_⟩
  · show _ = (_, (Sources.setNetwork _ p.sources).network)
    rw [Sources.network_setNetwork]
    rfl
  · exact h.replace (h.mirrors.redraw (Sources.setNetwork _)) rfl

end Attuned

/-! ### A slot, stage by stage -/

section Slot

variable [Generator ρ α] {params : Parameters α} {trace : List (Event ρ α)} {t : Nat}

theorem Attuned.ends_announce (h : Attuned params slots channels nodes x p k) (asn : Nat)
    {rest : List Nat} (hrest : rest ⊆ List.range nodes) :
    Ends (Network.announce surroundings.traced asn rest) (trace, p) fun _ s =>
      s.1 = trace ∧ Attuned params slots channels nodes x s.2 k ∧
        s.2.scheduler = p.scheduler := by
  induction rest generalizing p with
  | nil => exact ⟨rfl, h, rfl⟩
  | cons i rest ih =>
    rw [List.cons_subset] at hrest
    unfold Network.announce
    simp only [ends_bind, Shelf.ends_update]
    refine ⟨_, _, _, h.mirrors.stands.deviceAt_eq hrest.1, rfl, ?_⟩
    have hnext := h.mirrors.routine (Mac.routine_at (some asn)) (fun _ hm => hm) i
    exact ih (h.replace hnext rfl) hrest.2

theorem Attuned.ends_sinksOf (h : Attuned params slots channels nodes x p k) {rest : List Nat}
    (hrest : rest ⊆ List.range nodes) :
    Ends (Network.sinksOf surroundings.traced rest) (trace, p) fun sinks s =>
      sinks = List.replicate rest.length () ∧ s = (trace, p) := by
  induction rest with
  | nil => exact ⟨rfl, rfl⟩
  | cons i rest ih =>
    rw [List.cons_subset] at hrest
    unfold Network.sinksOf
    simp only [ends_bind, Shelf.ends_read]
    refine ⟨_, h.mirrors.stands.deviceAt_eq hrest.1, (ih hrest.2).mono ?_⟩
    rintro _ _ ⟨rfl, rfl⟩
    rw [(h.mirrors.stands.member hrest.1).attached]
    exact ⟨rfl, rfl⟩

omit [Generator ρ α] in
/-- The channel of a device for a slot: the one configured if the slot is its own. -/
theorem Attuned.channelFor_eq {cs : List Int}
    (h : Attuned params slots channels nodes (some cs) p k) (ht : t < slots) {i : Nat}
    (hi : i < nodes) :
    (p.deviceAt i).channelFor (.int t) = .ok (if t % nodes = i then cs[t]? else none) := by
  rw [(h.mirrors.stands.holds (List.mem_range.2 hi)).channelFor,
    (h.mirrors.seated i hi).owned_eq t ht]
  simp only [decide_eq_true_eq, Option.bind_some]

/-- Devices that do not own the slot keep silent. -/
theorem Attuned.ends_transmitters {cs : List Int} (traffic : Except Fault α)
    (h : Attuned params slots channels nodes (some cs) p k) (ht : t < slots) {rest : List Nat}
    (hrest : ∀ i ∈ rest, i < nodes ∧ t % nodes ≠ i) :
    Ends (Network.transmitters surroundings.traced traffic (.int t) rest) (trace, p) fun sent s =>
      sent = [] ∧ s = (trace, p) := by
  induction rest with
  | nil => exact ⟨rfl, rfl⟩
  | cons i rest ih =>
    obtain ⟨hi, hne⟩ := hrest i List.mem_cons_self
    have hnone : (p.deviceAt i).channelFor (.int t) = .ok none := by
      rw [h.channelFor_eq ht hi, if_neg hne]
    unfold Network.transmitters
    simp only [ends_bind, Shelf.ends_read, ends_ofExcept]
    refine ⟨_, h.mirrors.stands.deviceAt_eq (List.mem_range.2 hi), none, hnone, ?_⟩
    exact ih fun j hj => hrest j (List.mem_cons_of_mem i hj)

omit [Arith α] [Generator ρ α] in
theorem put_self {i : Nat} {m : Mac Unit} (hm : p.macs[i]? = some m) : shelf.put i m p = p := by
  obtain ⟨hlt, rfl⟩ := Array.getElem?_eq_some_iff.1 hm
  have hmacs : p.macs.setIfInBounds i p.macs[i] = p.macs := by
    rw [Array.setIfInBounds, dif_pos hlt, Array.set_getElem_self]
  exact congrArg (fun macs => { p with macs }) hmacs

omit [Arith α] [Generator ρ α] in
theorem put_put (i : Nat) (m m' : Mac Unit) (p : Pan ρ α) :
    shelf.put i m' (shelf.put i m p) = shelf.put i m' p :=
  congrArg (fun macs => { p with macs }) (Array.setIfInBounds_setIfInBounds ..)

theorem Attuned.twin_draw (h : Attuned params slots channels nodes x p k) :
    Twin (surroundings (ρ := ρ) (α := α)).traced.draws.uniform Solo.draws.uniform (trace, p) k
      fun u v s l => u = v ∧ s.1 = trace ∧
        Generator.uniform p.sources.network = (u, s.2.sources.network) ∧
        s.2 = { p with sources := s.2.sources } ∧ Attuned params slots channels nodes x s.2 l :=
  twin_left_outside.2 (h.twin_uniform.mono fun _ _ _ _ hp => ⟨hp.1, rfl, hp.2⟩)

/-- There is traffic whatever is drawn. -/
def Certain (ρ : Type) [Generator ρ α] (traffic : α) : Prop :=
  Arith.lt 0 traffic = true ∧ ∀ g : ρ, Arith.lt (Generator.uniform g).1 traffic = true

/-- The turn of the device that owns the slot: a frame, if there is one, comes and leaves again. -/
theorem Attuned.twin_turn {cs : List Int} {q : α}
    (h : Attuned params slots channels nodes (some cs) p k) (ht : t < slots) (hn : 0 < nodes)
    {c : Int} (hc : cs[t]? = some c) :
    Twin (Network.turn surroundings.traced (.ok q) (.int t) (t % nodes)) (Solo.supplied q)
      (trace, p) k fun sent frame s l =>
        sent = (if frame then some (t % nodes, c) else none) ∧ s.1 = trace ∧
          s.2 = { p with sources := s.2.sources } ∧
          Attuned params slots channels nodes (some cs) s.2 l ∧
          (Certain ρ q → frame = true) := by
  have howner : t % nodes < nodes := Nat.mod_lt t hn
  have hdevice := h.mirrors.stands.deviceAt_eq (List.mem_range.2 howner)
  have hqueue := (h.mirrors.seated _ howner).queue_eq
  have hsome : (p.deviceAt (t % nodes)).channelFor (.int t) = .ok (some c) := by
    rw [h.channelFor_eq ht howner, if_pos rfl, hc]
  -- without a frame the queue is found empty
  have hsilent : ∀ {r : Pan ρ α}, r.macs[t % nodes]? = some (p.deviceAt (t % nodes)) →
      Ends (do
        let frame ← surroundings.traced.macs.update (t % nodes) fun mac => .ok mac.popFrame
        return frame.map fun _ => (t % nodes, c)) (trace, r) fun sent s =>
          sent = none ∧ s = (trace, r) := by
    intro r hr
    simp only [ends_bind, Shelf.ends_update, ends_pure]
    refine ⟨_, none, p.deviceAt (t % nodes), hr, ?_, rfl, congrArg (trace, ·) (put_self hr)⟩
    simp only [Mac.popFrame, hqueue]
  unfold Network.turn
  rw [twin_left_bind, Shelf.ends_read]
  refine ⟨_, hdevice, ?_⟩
  rw [twin_left_bind, ends_ofExcept]
  refine ⟨some c, hsome, ?_⟩
  unfold Network.generate Solo.supplied
  simp only [Action.ofExcept, pure_bind]
  cases h0 : Arith.lt 0 q with
  | false =>
    simp only [Bool.false_eq_true, if_false, pure_bind]
    refine (hsilent hdevice).mono ?_
    rintro _ _ ⟨rfl, rfl⟩
    exact ⟨rfl, rfl, rfl, h, fun hcertain => by rw [hcertain.1] at h0; cases h0⟩
  | true =>
    simp only [if_true, bind_assoc]
    refine Twin.bind h.twin_draw ?_
    rintro u _ ⟨trace', r⟩ l ⟨rfl, htrace, hdraw, hr, hnext⟩
    dsimp only at htrace hdraw hr hnext
    subst htrace
    have hdevice' : r.macs[t % nodes]? = some (p.deviceAt (t % nodes)) := by
      rw [hr]
      exact hdevice
    cases hu : Arith.lt u q with
    | false =>
      simp only [Bool.false_eq_true, if_false, pure_bind]
      refine (hsilent hdevice').mono ?_
      rintro _ _ ⟨rfl, rfl⟩
      refine ⟨rfl, rfl, hr, hnext, fun hcertain => ?_⟩
      have hlt := hcertain.2 p.sources.network
      rw [hdraw, hu] at hlt
      cases hlt
    | true =>
      simp only [if_true]
      have hrequested : (shelf.put (t % nodes) ((p.deviceAt (t % nodes)).request .null (.int 0))
          r).macs[t % nodes]? = some ((p.deviceAt (t % nodes)).request .null (.int 0)) :=
        lawful_shelf.get?_put_self hdevice' _
      have hpopped : ((p.deviceAt (t % nodes)).request .null (.int 0)).popFrame
          = (some ⟨.null, .int 0, (p.deviceAt (t % nodes)).asn⟩, p.deviceAt (t % nodes)) := by
        simp only [Mac.popFrame, Mac.request, hqueue, List.nil_append]
        rw [← hqueue]
      rw [twin_left_bind, Shelf.ends_update]
      refine ⟨_, (), _, hdevice', rfl, ?_⟩
      rw [twin_left_bind, Shelf.ends_update]
      refine ⟨_, _, _, hrequested, congrArg Except.ok hpopped, ?_⟩
      have hback : shelf.put (t % nodes) (p.deviceAt (t % nodes)) (shelf.put (t % nodes)
          ((p.deviceAt (t % nodes)).request .null (.int 0)) r) = r := by
        rw [put_put, put_self hdevice']
      refine ⟨rfl, rfl, ?_⟩
      show shelf.put _ _ (shelf.put _ _ r) = _ ∧
        Attuned _ _ _ _ _ (shelf.put _ _ (shelf.put _ _ r)) l ∧ _
      rw [hback]
      exact ⟨hr, hnext, fun _ => rfl⟩

/-- Of all devices the owner of the slot alone can transmit. -/
theorem Attuned.twin_transmitters {cs : List Int} {q : α}
    (h : Attuned params slots channels nodes (some cs) p k) (ht : t < slots) (hn : 0 < nodes)
    {c : Int} (hc : cs[t]? = some c) :
    Twin (Network.transmitters surroundings.traced (.ok q) (.int t) (List.range nodes))
      (Solo.supplied q) (trace, p) k fun sent frame s l =>
        sent = (if frame then [(t % nodes, c)] else []) ∧ s.1 = trace ∧
          s.2 = { p with sources := s.2.sources } ∧
          Attuned params slots channels nodes (some cs) s.2 l ∧
          (Certain ρ q → frame = true) := by
  obtain ⟨before, after, hsplit⟩ := List.mem_iff_append.1 (List.mem_range.2 (Nat.mod_lt t hn))
  have hnodup : (before ++ t % nodes :: after).Nodup := hsplit ▸ List.nodup_range
  have hlt : ∀ i ∈ before ++ t % nodes :: after, i < nodes := by
    rw [← hsplit]
    exact fun i hi => List.mem_range.1 hi
  rw [hsplit]
  clear hsplit
  induction before with
  | nil =>
    rw [List.nil_append] at hnodup hlt ⊢
    have hafter : ∀ i ∈ after, i < nodes ∧ t % nodes ≠ i := fun i hi =>
      ⟨hlt i (List.mem_cons_of_mem _ hi), fun he => (List.nodup_cons.1 hnodup).1 (he ▸ hi)⟩
    rw [Network.transmitters_cons]
    refine Twin.left_bind (h.twin_turn ht hn hc) ?_
    rintro sent frame ⟨trace', r⟩ l ⟨rfl, htrace, hr, hnext, hcertain⟩
    dsimp only at htrace hr hnext
    subst htrace
    rw [ends_bind]
    refine (hnext.ends_transmitters (.ok q) ht hafter).mono ?_
    rintro _ _ ⟨rfl, rfl⟩
    refine ⟨?_, rfl, hr, hnext, hcertain⟩
    cases frame <;> rfl
  | cons i before ih =>
    rw [List.cons_append] at hnodup hlt ⊢
    have hi : t % nodes ≠ i := fun he =>
      (List.nodup_cons.1 hnodup).1 (he ▸ List.mem_append_right before List.mem_cons_self)
    have hnone : (p.deviceAt i).channelFor (.int t) = .ok none := by
      rw [h.channelFor_eq ht (hlt i List.mem_cons_self), if_neg hi]
    unfold Network.transmitters
    rw [twin_left_bind, Shelf.ends_read]
    refine ⟨_, h.mirrors.stands.deviceAt_eq (List.mem_range.2 (hlt i List.mem_cons_self)), ?_⟩
    rw [twin_left_bind, ends_ofExcept]
    exact ⟨none, hnone,
      ih (List.nodup_cons.1 hnodup).2 fun j hj => hlt j (List.mem_cons_of_mem i hj)⟩

/-! ### Outcomes -/

/-- How a transmission comes about in a slotframe that is shared in turn: it is made by the owner of
the slot at hand and on the channel that is configured for the slot then, and whether it fails is
up to the number drawn last. `p` is the network at that time. -/
structure TakesTurn (slots nodes : Nat) (interference : Interference α)
    (r : TransmissionRecord Nat) (p : Pan ρ α) : Prop where
  at_asn : p.scheduler.asn = some r.asn
  slot_eq : r.slot = .int (r.asn % slots : Nat)
  sender_eq : r.sender = r.asn % slots % nodes
  channel_eq : channelAt? p.scheduler.configuration (r.asn % slots) = some r.channel
  undisturbed : ∃ g u q, Generator.uniform g = (u, p.sources.network) ∧
    interference.probability? r.channel = some q ∧ r.success = !Arith.lt u q

omit [Arith α] [Generator ρ α] in
theorem Mirrors.count (h : Mirrors slots channels nodes x p k) (device : DeviceName)
    (spelling : Datum) (channel : Int) (success : Bool) :
    Mirrors slots channels nodes x
      { p with statistics := p.statistics.count device spelling channel success }
      (k.counting channel success) where
  stands := h.stands.congr rfl rfl
  unlimited := h.unlimited
  failures_eq := h.failures_eq
  seated := h.seated
  solo_eq := by
    obtain rfl := h.solo_eq
    rfl
  attempts_eq := by
    show (p.statistics.count device spelling channel success).totalAttempts
      = (p.statistics.channelAttempts.bump channel).total
    rw [Statistics.totalAttempts_count, Tally.total_bump]
    exact congrArg (· + 1) h.attempts_eq
  successes_eq := by
    show (p.statistics.count device spelling channel success).totalSuccesses
      = (p.statistics.count device spelling channel success).channelSuccesses.total
    rw [Statistics.totalSuccesses_count, Statistics.total_channelSuccesses_count]
    exact congrArg (· + success.toNat) h.successes_eq

theorem Attuned.twin_disturbed {interference : Interference α} {channel : Datum} {q : α}
    (hq : interference.pick channel = .ok q) (h : Attuned params slots channels nodes x p k) :
    Twin (interference.disturbed (surroundings (ρ := ρ) (α := α)).traced.draws channel)
      (interference.disturbed Solo.draws channel) (trace, p) k fun failed failed' s l =>
        failed = failed' ∧ s.1 = trace ∧ s.2 = { p with sources := s.2.sources } ∧
          Attuned params slots channels nodes x s.2 l ∧
          ∃ g u, Generator.uniform g = (u, s.2.sources.network) ∧ failed = Arith.lt u q := by
  unfold Interference.disturbed
  rw [hq]
  refine Twin.bind h.twin_draw ?_
  rintro u _ s l ⟨rfl, htrace, hdraw, hs, hnext⟩
  exact ⟨rfl, htrace, hs, hnext, _, u, hdraw, rfl⟩

/-- An outcome and its record are delivered. -/
theorem Attuned.twin_report (hsound : Generator.Sound ρ) {observers : Notifier Unit}
    (hobservers : observers.callees = [()]) (h : Attuned params slots channels nodes x p k)
    {c : Nat} (ht : t < slots) (hc : c < channels) {r : TransmissionRecord Nat}
    (hslot : r.slot = .int t) (hchannel : r.channel = c) (hname : r.senderName.IsKey) :
    Twin (Network.report surroundings.traced observers (some ()) r) (do
        Solo.inScheduler (recordOutcome (.int t) (.int c) r.success)
        modify (Solo.counting c r.success)) (trace, p) k fun _ _ s l =>
      Attuned params slots channels nodes x s.2 l ∧
        s.2.scheduler = p.scheduler.informed t c r.success ∧
        ∃ q : Pan ρ α, q.scheduler = s.2.scheduler ∧ q.sources = p.sources ∧
          transmissions s.1 = transmissions trace ++ [(r, q)] := by
  obtain ⟨device, hdevice⟩ : ∃ device, DeviceName.ofDatum? r.sender r.senderName = some device := by
    cases hn : r.senderName with
    | list _ => rw [hn] at hname; exact hname.elim
    | dict _ => rw [hn] at hname; exact hname.elim
    | _ => exact ⟨_, rfl⟩
  have hadd : ∀ s : Statistics,
      s.add r = .ok (s.count device r.senderName r.channel r.success) := by
    intro s
    rw [Statistics.add, hdevice]
  have hdelivered : Twin (surroundings.traced.outcome () r.slot r.channel r.success)
      (Solo.inScheduler (recordOutcome (.int t) (.int c) r.success)) (trace, p) k fun _ _ s l =>
        Attuned params slots channels nodes x s.2 l ∧
          s.2.scheduler = p.scheduler.informed t c r.success ∧ s.2.sources = p.sources ∧
          transmissions s.1 = transmissions trace := by
    rw [hslot, hchannel]
    refine twin_left_delivering.2 ((h.twin_outcome hsound ht hc r.success).mono ?_)
    rintro _ _ q l ⟨hnext, hscheduler, hsources⟩
    exact ⟨hnext, hscheduler, hsources, by rw [transmissions_concat]; simp [Event.transmission?]⟩
  unfold Network.report
  refine Twin.bind hdelivered ?_
  rintro _ _ ⟨trace', q⟩ l ⟨hnext, hscheduler, hsources, hsame⟩
  dsimp only at hnext hscheduler hsources hsame
  unfold Notifier.trigger
  rw [hobservers, twin_left_bind, ends_note]
  refine ⟨rfl, ?_⟩
  show Twin (surroundings.traced.observe () r >>= fun _ => pure ()) _ _ _ _
  refine Twin.left_bind ?_ fun _ _ _ _ hp => hp
  refine twin_left_delivering.2 ?_
  unfold Twin
  simp only [surroundings, ends_bind, ends_get, ends_ofExcept, ends_modify, ends_pure]
  refine ⟨_, hadd _, ?_, hscheduler, Journal.enter (.ofComponent .simulation observers.label
    (.triggered (.text r.label))) q, rfl, hsources, ?_⟩
  · rw [hchannel]
    exact hnext.replace ((hnext.mirrors.enter _).count device r.senderName c r.success) rfl
  · rw [transmissions_concat, hsame]
    rfl

theorem Attuned.twin_confirm {cs : List Int} (hsound : Generator.Sound ρ)
    {net : Network Nat Unit α} (hnet : net.Regular slots channels)
    (hobservers : net.observers.callees = [()])
    (h : Attuned params slots channels nodes (some cs) p k) (hn : 0 < nodes) {c : Nat}
    (hc : c < channels) {channel : Int} (hchannel : channel = c) (ht : t = net.asn % slots)
    (hconfigured : channelAt? p.scheduler.configuration t = some channel)
    (hasn : p.scheduler.asn = some net.asn) :
    Twin (Network.confirm surroundings.traced net (.int t) [(t % nodes, channel)]
        [(t % nodes, channel)])
      (Solo.transmit net.interference t channel) (trace, p) k fun _ _ s l =>
        Attuned params slots channels nodes (some cs) s.2 l ∧ ∃ r q,
          transmissions s.1 = transmissions trace ++ [(r, q)] ∧ r.asn = net.asn ∧
          TakesTurn slots nodes net.interference r q ∧
          s.2.scheduler = p.scheduler.informed t c r.success := by
  have htlt : t < slots := ht ▸ Nat.mod_lt _ hnet.slots_pos
  have howner : t % nodes < nodes := Nat.mod_lt _ hn
  have hmember := h.mirrors.stands.member (List.mem_range.2 howner)
  obtain ⟨chance, hq⟩ : ∃ chance, net.interference.pick (.int channel) = .ok chance := by
    rw [hchannel]
    apply Network.Coupled.pick_eq_ok
    · rw [hnet.interference_eq]
      exact hc
    · rw [hnet.interference_eq]
      exact hnet.channels_lt
  have hchance := Interference.probability?_of_pick hq
  have hrivals : ¬ 1 < [(t % nodes, channel)].countP (·.2 == channel) := by simp
  rw [Network.confirm_cons, twin_left_bind, Shelf.ends_read]
  refine ⟨_, h.mirrors.stands.deviceAt_eq (List.mem_range.2 howner), ?_⟩
  unfold Network.statusOf Solo.transmit
  rw [if_neg hrivals, bind_assoc]
  refine Twin.bind (h.twin_disturbed hq) ?_
  rintro failed _ ⟨trace', r⟩ l ⟨rfl, htrace, hr, hnext, g, u, hdraw, hfailed⟩
  dsimp only at htrace hr hnext hdraw
  subst htrace
  rw [← apply_ite pure, pure_bind, hmember.attached]
  obtain ⟨record, hrecord⟩ : ∃ record : TransmissionRecord Nat, record =
      { asn := net.asn, slot := .int t, channel, sender := t % nodes,
        senderName := (p.deviceAt (t % nodes)).name,
        status := if failed then .noAck else .success } := ⟨_, rfl⟩
  have hsuccess : record.success = !failed := by
    rw [hrecord]
    cases failed <;> rfl
  rw [← hrecord, ← hsuccess, hchannel]
  refine Twin.left_bind (hnext.twin_report hsound hobservers htlt hc (r := record)
    (by rw [hrecord]) (by rw [hrecord]; exact hchannel) (by rw [hrecord]; exact hmember.named)) ?_
  rintro _ _ ⟨trace', v⟩ l ⟨hattuned, hinformed, q, hq', hsources, hsent⟩
  have hscheduler : r.scheduler = p.scheduler := by rw [hr]
  dsimp only at hattuned hinformed hq' hsent
  rw [hscheduler] at hinformed
  refine ⟨hattuned, record, q, hsent, by rw [hrecord], ?_, hinformed⟩
  exact {
    at_asn := by rw [hq', hinformed, asn_informed, hasn, hrecord]
    slot_eq := by rw [hrecord, ht]
    sender_eq := by rw [hrecord, ht]
    channel_eq := by
      rw [hq', hinformed, hrecord, ← ht, ← hconfigured]
      unfold ChannelHopping.informed
      split <;> rfl
    undisturbed := by
      refine ⟨g, u, chance, ?_, ?_, ?_⟩
      · rw [hsources]
        exact hdraw
      · rw [hrecord]
        exact hchance
      · rw [hsuccess, hfailed] }

theorem Attuned.ends_deliverOverheard (h : Attuned params slots channels nodes x p k)
    (slot : Datum) (senders : List Nat) {rest : List Nat} (hrest : rest ⊆ List.range nodes) :
    Ends (Network.deliverOverheard surroundings.traced slot senders rest) (trace, p) fun _ s =>
      s.2 = p ∧ transmissions s.1 = transmissions trace := by
  induction rest generalizing trace with
  | nil => exact ⟨rfl, rfl⟩
  | cons i rest ih =>
    rw [List.cons_subset] at hrest
    unfold Network.deliverOverheard
    rw [ends_bind, Shelf.ends_read]
    refine ⟨_, h.mirrors.stands.deviceAt_eq hrest.1, ?_⟩
    rw [(h.mirrors.stands.member hrest.1).attached]
    dsimp only
    split
    · refine (ih hrest.2).mono ?_
      rintro _ s ⟨hs, hsame⟩
      refine ⟨hs, hsame.trans ?_⟩
      rw [transmissions_concat]
      exact List.append_nil _
    · exact ih hrest.2

end Slot
end Pan
end TschLearning
