import Mathlib.Algebra.Order.BigOperators.Group.List
import TschLearning.Network.Process
import TschLearning.Proofs.Simulation
import TschLearning.Proofs.Testbed.Accounts
import TschLearning.Proofs.Testbed.Congruent
import TschLearning.Testbed.Running

/-! A network in a simulation. A process that runs a slot after the other comes to what as many
slots run directly come to, and so time can pass in one run or in many. -/

namespace TschLearning.Number

theorem stepsToCover_int (span : Nat) {d : Nat} (hd : 0 < d) :
    stepsToCover (.int span) (.int d) = span ⌈/⌉ d := by
  have hle : ¬(d : Int) ≤ 0 := by omega
  have hsum : (span : Int) * (1 : Nat) + ((1 : Nat) * d - 1) = (span + d - 1 : Nat) := by omega
  have hwidth : ((1 : Nat) : Int) * d = d := Int.one_mul _
  show (if (d : Int) ≤ 0 then 0 else _) = _
  rw [if_neg hle, hsum, hwidth, ← Int.natCast_ediv, Int.toNat_natCast, Nat.ceilDiv_eq_add_pred_div]

end TschLearning.Number

namespace TschLearning.Network

open TschLearning.Action Simulation

variable {μ κ ο σ α : Type} [DecidableEq μ] [DecidableEq κ] [Arith α] [Journal σ]
  {env : Surroundings μ κ ο σ α}

/-- Slots one after the other. -/
theorem ends_runSlots_add {m n : Nat} {p : Network μ ο α × σ}
    {post : Unit → Network μ ο α × σ → Prop} :
    Ends (runSlots env (m + n)) p post ↔
      Ends (runSlots env m) p fun _ q => Ends (runSlots env n) q post := by
  induction m generalizing p with
  | zero => rw [Nat.zero_add, runSlots, ends_pure]
  | succ m ih => simp only [Nat.succ_add, runSlots, ends_bind, ih]

/-- Fewer slots end as well. -/
theorem ends_runSlots_of_le {k n : Nat} (hk : k ≤ n) {p : Network μ ο α × σ}
    (h : Ends (runSlots env n) p fun _ _ => True) : Ends (runSlots env k) p fun _ _ => True := by
  obtain ⟨m, rfl⟩ := Nat.exists_eq_add_of_le hk
  exact (ends_runSlots_add.1 h).mono fun _ _ _ => trivial

/-- The last of some slots. -/
theorem ends_advance_of_runSlots {k : Nat} {p w : Network μ ο α × σ}
    (hrun : runSlots env k p = .ok () w)
    (hmore : Ends (runSlots env (k + 1)) p fun _ _ => True) :
    Ends (advance env) w fun _ q => runSlots env (k + 1) p = .ok () q := by
  obtain ⟨_, q, hlast, -⟩ := ends_iff.1 hmore
  have h : Ends (runSlots env (k + 1)) p fun _ r => r = q := ends_iff.2 ⟨_, _, hlast, rfl⟩
  rw [ends_runSlots_add] at h
  have hslot := (meets_false.2 h).post hrun
  rw [runSlots, ends_bind] at hslot
  exact hslot.mono fun _ r hr => Eq.symm hr ▸ hlast

theorem meets_runSlot_next (net : Network μ ο α) (s : σ) :
    Meets True (runSlot env net) s fun next _ => next = { net with asn := net.asn + 1 } := by
  unfold runSlot
  iterate 6 refine meets_bind.2 (meets_of_forall fun _ _ => ?_)
  dsimp only
  split
  · exact meets_bind.2 (meets_of_forall fun _ _ => rfl)
  · rfl

/-- Slots count, and leave the rest of the network itself as it is. -/
theorem meets_runSlots_next (n : Nat) (net : Network μ ο α) (s : σ) :
    Meets True (runSlots env n) (net, s) fun _ p => p.1 = { net with asn := net.asn + n } := by
  induction n generalizing net s with
  | zero => rfl
  | succ n ih =>
    unfold runSlots advance
    simp only [meets_bind, meets_part, meets_outside, meets_change]
    refine (meets_runSlot_next net s).mono ?_
    rintro _ t rfl
    refine (ih _ t).mono fun _ p hp => ?_
    rw [hp, Nat.add_assoc, Nat.add_comm 1]

omit [DecidableEq μ] [DecidableEq κ] [Arith α] [Journal σ] in
theorem ceilDiv_le_slotBound {net : Network μ ο α} {d : Nat}
    (hduration : net.slotDuration = .ok (.int d)) (hpos : 0 < d) (span : Nat) :
    span ⌈/⌉ d ≤ net.slotBound (.int span) := by
  rw [slotBound, hduration]
  dsimp only
  rw [Number.stepsToCover_int span hpos]
  omega

variable {net net' : Network μ ο α} {s s' : σ} {d n : Nat}

/-- In a simulation, slots come one by one, whatever the surroundings make of them. -/
theorem ticks_program (hduration : net.slotDuration = .ok (.int d)) (hpos : 0 < d)
    (hrun : runSlots env n (net, s) = .ok () (net', s')) :
    Ticks (program env) () d n fun k w => runSlots env k (net, s) = .ok () w where
  pos := hpos
  resume {k t} hk _ hat := by
    have hmore : Ends (runSlots env (k + 1)) (net, s) fun _ _ => True :=
      ends_runSlots_of_le hk (ends_iff.2 ⟨_, _, hrun, trivial⟩)
    show Ends (inWorld (advance env) >>= fun _ => _) t _
    rw [ends_bind, ends_inWorld]
    refine (ends_advance_of_runSlots hat hmore).mono fun _ w hw => ?_
    have hnext := (meets_runSlots_next (k + 1) net s).post hw
    rw [ends_bind, ends_get, ends_bind, ends_ofExcept]
    exact ⟨_, hnext ▸ hduration, rfl, rfl, hw⟩
  resumptions {k w} span hat := by
    have hnext := (meets_runSlots_next k net s).post hat
    exact ceilDiv_le_slotBound (hnext ▸ hduration) hpos span

end TschLearning.Network

namespace TschLearning.Testbed

open TschLearning.Action

variable {t u : Testbed}

/-! ### Slots run directly -/

section Direct

variable {handle rng k n : Nat} {v : NetworkUnit} {net net' : Network Nat ObserverRef Float}
  {s : Testbed} {w : World}

/-- Slots change nothing of the frame. -/
theorem frame_of_runSlots (ht : (frame t).Loggable)
    (hrun : Network.runSlots (surroundings rng) n (net, t) = .ok () (net', u)) :
    frame u = frame t := by
  obtain ⟨_, -, h⟩ :=
    Network.runSlots_of_alike (alike_surroundings ht ht rng) ⟨rfl, rfl, rfl⟩ hrun
  exact h.left

/-- The world is the one that so many slots run directly come to, but for what was logged. -/
def Reached (handle : Nat) (start : Testbed) (k : Nat) (w : World) : Prop :=
  Ends (runSlots handle k) start fun _ t => unlogged w = unlogged t.world

variable (hv : networks.get? handle t = some v) (ht : (frame t).Loggable)

include hv ht

/-- A network is found where it is put after slots. -/
theorem get?_put_of_runSlots
    (hrun : Network.runSlots (surroundings rng) n (net, t) = .ok () (net', u)) (new : NetworkUnit) :
    networks.get? handle (networks.put handle new u) = some new := by
  have hnetworks : u.world.networks = t.world.networks :=
    congrArg Frame.networks (frame_of_runSlots ht hrun)
  have hu : networks.get? handle u = some v := by
    rw [← hv]
    exact congrArg (·[handle]?) hnetworks
  exact shelf_get?_put_self (fun _ _ => rfl) hu new

/-- Slots of a network of the testbed are slots of the network. -/
theorem ends_runSlots {post : Nat → Testbed → Prop} :
    Ends (runSlots handle n) t post ↔
      Ends (Network.runSlots (surroundings v.rng) n) (v.network, t) fun _ p =>
        post p.1.asn (networks.put handle { v with network := p.1 } p.2) := by
  simp only [runSlots, ends_bind, Shelf.ends_read, Shelf.ends_run, ends_within, ends_pure, hv,
    Option.some.injEq, exists_eq_left']
  rw [ends_iff, ends_iff]
  constructor
  · rintro ⟨_, ⟨net, u⟩, hrun, w, hw, hpost⟩
    cases (get?_put_of_runSlots hv ht hrun _).symm.trans hw
    exact ⟨_, _, hrun, hpost⟩
  · rintro ⟨_, ⟨net, u⟩, hrun, hpost⟩
    exact ⟨_, _, hrun, _, get?_put_of_runSlots hv ht hrun _, hpost⟩

theorem ends_runSlots_of_le (hk : k ≤ n) (h : Ends (runSlots handle n) t fun _ _ => True) :
    Ends (runSlots handle k) t fun _ _ => True := by
  rw [ends_runSlots hv ht] at h ⊢
  exact Network.ends_runSlots_of_le hk h

theorem asn_of_runSlots {asn : Nat} (hrun : runSlots handle n t = .ok asn u) :
    asn = v.network.asn + n := by
  have h : Ends (runSlots handle n) t fun b _ => b = asn := ends_iff.2 ⟨_, _, hrun, rfl⟩
  rw [ends_runSlots hv ht] at h
  obtain ⟨_, ⟨net, w⟩, hnet, rfl⟩ := ends_iff.1 h
  exact congrArg (·.asn) ((Network.meets_runSlots_next n v.network t).post hnet)

namespace Reached

/-- The slots that a world has come from, and the network in it. -/
theorem exists_run (h : Reached handle t k w) : ∃ u,
    Network.runSlots (surroundings v.rng) k (v.network, t) =
      .ok () ({ v.network with asn := v.network.asn + k }, u) ∧
    unlogged w = unlogged (networks.put handle
      { v with network := { v.network with asn := v.network.asn + k } } u).world := by
  rw [Reached, ends_runSlots hv ht] at h
  obtain ⟨_, ⟨net, u⟩, hrun, hw⟩ := ends_iff.1 h
  obtain rfl : net = { v.network with asn := v.network.asn + k } :=
    (Network.meets_runSlots_next k v.network t).post hrun
  exact ⟨u, hrun, hw⟩

theorem get? (h : Reached handle t k w) :
    w.networks[handle]? =
      some { v with network := { v.network with asn := v.network.asn + k } } := by
  obtain ⟨u, hrun, hw⟩ := h.exists_run hv ht
  rw [← get?_put_of_runSlots hv ht hrun]
  exact congrArg (·.networks[handle]?) hw

theorem generation_eq (h : Reached handle t k w) : w.generation = t.world.generation := by
  obtain ⟨u, hrun, hw⟩ := h.exists_run hv ht
  exact (congrArg (·.generation) hw).trans (congrArg Frame.generation (frame_of_runSlots ht hrun))

theorem threshold_eq (h : Reached handle t k w) : w.log.threshold = t.world.log.threshold := by
  obtain ⟨u, hrun, hw⟩ := h.exists_run hv ht
  exact (congrArg (·.log.threshold) hw).trans
    (congrArg Frame.threshold (frame_of_runSlots ht hrun))

/-- A slot more, at whatever time. -/
theorem ends_slot (hs : (frame s).Loggable) (h : Reached handle t k s.world)
    (hmore : Ends (runSlots handle (k + 1)) t fun _ _ => True) :
    Ends (runSlots handle 1) s fun _ s' =>
      s'.agenda = s.agenda ∧ Reached handle t (k + 1) s'.world := by
  have hnow : networks.get? handle s = _ := h.get? hv ht
  obtain ⟨tk, hrun, hworld⟩ := h.exists_run hv ht
  rw [ends_runSlots hv ht, Network.ends_runSlots_add] at hmore
  obtain ⟨_, ⟨net', tk'⟩, hslot, -⟩ := ends_iff.1 ((meets_false.2 hmore).post hrun)
  -- the slot at hand finds other networks and another time, which are both of no account
  have hcongruent : Congruent (frame tk) (frame s) tk s :=
    ⟨(congrArg (fun w : World => { w with networks := #[] }) hworld).symm, rfl, rfl⟩
  obtain ⟨s', hslot', hs'⟩ := Network.runSlots_of_alike
    (alike_surroundings ((frame_of_runSlots ht hrun).symm ▸ ht) hs v.rng) hcongruent hslot
  rw [ends_runSlots hnow hs]
  refine ends_iff.2 ⟨_, _, hslot', congrArg Frame.agenda hs'.right, ?_⟩
  rw [Reached, ends_runSlots hv ht, Network.ends_runSlots_add]
  refine ends_iff.2 ⟨_, _, hrun, ends_iff.2 ⟨_, _, hslot, unlogged_congr hs'.core_eq.symm ?_⟩⟩
  have hnetworks : s.world.networks = tk.world.networks.setIfInBounds handle _ :=
    congrArg World.networks hworld
  have hleft : tk'.world.networks = tk.world.networks := congrArg Frame.networks hs'.left
  have hright : s'.world.networks = s.world.networks := congrArg Frame.networks hs'.right
  show s'.world.networks.setIfInBounds handle _ = tk'.world.networks.setIfInBounds handle _
  rw [hleft, hright, hnetworks, Array.setIfInBounds_setIfInBounds]

end Reached

end Direct

/-! ### Simulations -/

open Simulation

/-- A run or a slot starts at the time. -/
def Starts (d : Nat) (spans : List Nat) (time : Nat) : Prop :=
  time < spans.sum ∧ (d ∣ time ∨ ∃ past, past <+: spans ∧ past.sum = time)

/-- A network has just been started in a simulation of its own. -/
structure Started (handle d : Nat) (v : NetworkUnit) (t : Testbed) : Prop where
  found : networks.get? handle t = some v
  duration : v.network.slotDuration = .ok (.int d)
  pos : 0 < d
  clocked : t.world.generation ≠ 0
  awaits : Awaits (.network handle) d 0 t.agenda

theorem loggable_of_now {time : Nat} (hnow : t.agenda.now = .int time)
    (htime : t.world.log.threshold = none ∨ time < Binary64.integerLimit) :
    (frame t).Loggable := by
  refine htime.imp_right fun hlt => ?_
  show t.agenda.now.toFloat?.isSome
  rw [hnow, Number.toFloat?, Binary64.ofInt?, Int.natAbs_natCast, if_pos hlt]
  rfl

theorem ends_announce (ht : (frame t).Loggable) :
    Ends Simulation.announce t fun _ u =>
      u.agenda = t.agenda ∧ unlogged u.world = unlogged t.world := by
  rw [Simulation.announce, ends_note, obstacle?_of_loggable ht]
  refine ⟨?_, rfl, unlogged_congr (core_enter t _) rfl⟩
  split
  · rfl
  · rfl

namespace Started

variable {handle d now k : Nat} {v : NetworkUnit} {s : Testbed}

theorem loggable (h : Started handle d v t) : (frame t).Loggable :=
  loggable_of_now h.awaits.now_eq (.inr (by decide +kernel))

/-- A network starts with a slot that is due at once. -/
theorem ends_start (hagenda : t.agenda = .fresh) (hclocked : t.world.generation ≠ 0)
    (hv : networks.get? handle t = some v) (hnew : v.network.started = false)
    (hduration : v.network.slotDuration = .ok (.int d)) (hpos : 0 < d) :
    Ends (startNetwork handle) t fun _ u =>
      Started handle d { v with network := { v.network with started := true } } u ∧
        u.world.log = t.world.log := by
  have hclock : clock? t = some t.agenda.now := if_neg hclocked
  have hnotStarted : ¬v.network.started = true := hnew ▸ Bool.false_ne_true
  rw [startNetwork, ends_bind]
  refine networks.ends_read.2 ⟨v, hv, ?_⟩
  simp only [if_neg hnotStarted, startProcess, clock, changeNetwork, ends_bind, ends_get, hclock]
  refine networks.ends_update.2 ⟨v, _, _, hv, rfl, ?_, rfl⟩
  refine ⟨shelf_get?_put_self (fun _ _ => rfl) hv _, hduration, hpos, hclocked, ?_⟩
  show Awaits (.network handle) d 0 (t.agenda.start (.network handle))
  rw [hagenda]
  exact awaits_start

theorem reached_zero (h : Started handle d v t) : Reached handle t 0 t.world := by
  rw [Reached, ends_runSlots h.found h.loggable]
  refine unlogged_congr rfl ?_
  show t.world.networks = t.world.networks.setIfInBounds handle v
  obtain ⟨hlt, hv⟩ := Array.getElem?_eq_some_iff.1 h.found
  rw [Array.setIfInBounds, dif_pos hlt, ← hv, Array.set_getElem_self]

theorem clock?_eq (h : Started handle d v t) (hs : Awaits (.network handle) d now s.agenda)
    (hat : Reached handle t k s.world) : clock? s = some (.int now) := by
  rw [clock?, if_neg, hs.now_eq]
  rw [hat.generation_eq h.found h.loggable]
  exact h.clocked

section Runs

variable {spans : List Nat} (h : Started handle d v t)
  (hslots : Ends (runSlots handle (spans.sum ⌈/⌉ d)) t fun _ _ => True)
  (hlog : t.world.log.threshold = none ∨
    ∀ time, Starts d spans time → time < Binary64.integerLimit)

include h hslots hlog

/-- In a simulation, slots come one by one. -/
theorem ticks : Ticks program (.network handle) d (spans.sum ⌈/⌉ d) (Reached handle t) where
  pos := h.pos
  resume {k s} hk hnow hat := by
    have hs : (frame s).Loggable := by
      refine loggable_of_now hnow ?_
      rw [hat.threshold_eq h.found h.loggable]
      exact hlog.imp_right fun hlog =>
        hlog _ ⟨(gc_mul_ceilDiv h.pos).lt_iff_lt.1 hk, .inl ⟨k, rfl⟩⟩
    have hmore := ends_runSlots_of_le h.found h.loggable hk hslots
    show Ends (resume (.network handle) .null) s _
    rw [resume, ends_bind]
    refine (hat.ends_slot h.found h.loggable hs hmore).mono ?_
    rintro _ u ⟨hagenda, hreached⟩
    rw [ends_bind]
    refine networks.ends_read.2 ⟨_, hreached.get? h.found h.loggable, ?_⟩
    rw [ends_bind, ends_ofExcept]
    exact ⟨_, h.duration, rfl, hagenda, hreached⟩
  resumptions {k w} span hat := by
    show span ⌈/⌉ d ≤
      (w.networks[handle]?.map fun u => u.network.slotBound (.int span)).getD 0
    rw [hat.get? h.found h.loggable]
    exact Network.ceilDiv_le_slotBound h.duration h.pos span

/-- A run for a span of time comes to the slots that start before its end. -/
theorem ends_runFor {span : Nat} (hspan : 0 < span) (hnow : Starts d spans now)
    (hle : now + span ≤ spans.sum) (hs : Awaits (.network handle) d now s.agenda)
    (hat : Reached handle t (now ⌈/⌉ d) s.world) :
    Ends (runFor (.int span)) s fun _ u =>
      Awaits (.network handle) d (now + span) u.agenda ∧
        Reached handle t ((now + span) ⌈/⌉ d) u.world := by
  have hloggable : (frame s).Loggable := by
    refine loggable_of_now hs.now_eq ?_
    rw [hat.threshold_eq h.found h.loggable]
    exact hlog.imp_right fun hlog => hlog now hnow
  rw [runFor, ends_bind]
  refine (ends_announce hloggable).mono ?_
  rintro _ u ⟨hagenda, hworld⟩
  have hat : Reached handle t (now ⌈/⌉ d) u.world := hat.mono fun _ _ h => hworld.trans h
  have hs : Awaits (.network handle) d now u.agenda := hagenda ▸ hs
  show Ends (clock >>= fun _ => Simulation.runFor program (.int span)) u _
  rw [ends_bind, clock, ends_bind, ends_get, h.clock?_eq hs hat]
  exact (h.ticks hslots hlog).ends_runFor hspan ((gc_mul_ceilDiv h.pos).monotone_l hle) hs hat

theorem ends_runFor_sum (hsum : 0 < spans.sum) :
    Ends (runFor (.int spans.sum)) t fun _ u =>
      Awaits (.network handle) d spans.sum u.agenda ∧
        Reached handle t (spans.sum ⌈/⌉ d) u.world := by
  have hzero : Reached handle t (0 ⌈/⌉ d) t.world := by
    rw [zero_ceilDiv]
    exact h.reached_zero
  have hrun := h.ends_runFor hslots hlog hsum ⟨hsum, .inl ⟨0, rfl⟩⟩ (Nat.zero_add _).le h.awaits
    hzero
  rwa [Nat.zero_add] at hrun

theorem ends_forM_runFor (hspans : ∀ span ∈ spans, 0 < span) :
    Ends (spans.forM fun span => runFor (.int span)) t fun _ u =>
      Awaits (.network handle) d spans.sum u.agenda ∧
        Reached handle t (spans.sum ⌈/⌉ d) u.world := by
  refine ends_spans (I := fun now (u : Testbed) => Awaits (.network handle) d now u.agenda ∧
    Reached handle t (now ⌈/⌉ d) u.world) ?_ ?_
  · rintro past span rest rfl s ⟨hs, hat⟩
    have hspan : 0 < span := hspans span (by simp)
    have hsum : (past ++ span :: rest).sum = past.sum + span + rest.sum := by
      rw [List.sum_append, List.sum_cons, Nat.add_assoc]
    refine h.ends_runFor hslots hlog hspan ⟨?_, .inr ⟨past, ⟨_, rfl⟩, rfl⟩⟩ ?_ hs hat
    · omega
    · omega
  · rw [zero_ceilDiv]
    exact ⟨h.awaits, h.reached_zero⟩

end Runs

end Started

/-- It makes no difference whether time passes in one run or in many. A network that is alone in
its simulation has run a slot for every duration of a slot that has begun, and everything is as
these slots leave it when they are run directly. That holds whatever a network has around it, and
in a testbed for everything but the log, as long as the times that go there can be written. -/
theorem splitting_changes_nothing {d : Nat} {spans : List Nat} (hpos : 0 < d)
    (hspans : ∀ span ∈ spans, 0 < span) :
    (∀ {μ κ ο σ α : Type} [DecidableEq μ] [DecidableEq κ] [Arith α] [Journal σ]
      (env : Surroundings μ κ ο σ α) {net net' : Network μ ο α} {s s' : σ},
      net.slotDuration = .ok (.int d) →
      Network.runSlots env (spans.sum ⌈/⌉ d) (net, s) = .ok () (net', s') →
      net'.asn = net.asn + spans.sum ⌈/⌉ d ∧
      Ends (spans.forM fun span => Simulation.runFor (Network.program env) (.int span))
        ⟨.start .fresh (), net, s⟩ fun _ split =>
          split.agenda.now = .int spans.sum ∧
          split.world = (net', s') ∧
          (spans ≠ [] → Ends (Simulation.runFor (Network.program env) (.int spans.sum))
            ⟨.start .fresh (), net, s⟩ fun _ single =>
              single.agenda.now = split.agenda.now ∧ single.world = split.world)) ∧
    ∀ {handle : Nat} {t : Testbed} {v : NetworkUnit},
      t.agenda = .fresh → t.world.generation ≠ 0 →
      networks.get? handle t = some v → v.network.started = false →
      v.network.slotDuration = .ok (.int d) →
      (t.world.log.threshold = none ∨
        ∀ time, Starts d spans time → time < Binary64.integerLimit) →
      Ends (startNetwork handle) t fun _ start =>
        ∀ (asn : Nat) (direct : Testbed),
          runSlots handle (spans.sum ⌈/⌉ d) start = .ok asn direct →
          asn = v.network.asn + spans.sum ⌈/⌉ d ∧
          Ends (spans.forM fun span => runFor (.int span)) start fun _ split =>
            clock? split = some (.int spans.sum) ∧
            (networks.get? handle split).map (·.network.asn) = some asn ∧
            unlogged split.world = unlogged direct.world ∧
            (spans ≠ [] → Ends (runFor (.int spans.sum)) start fun _ single =>
              clock? single = clock? split ∧ unlogged single.world = unlogged split.world) := by
  refine ⟨fun env net net' s s' hduration hrun => ?_,
    fun {handle t v} hagenda hclocked hv hnew hduration hlog => ?_⟩
  · have hticks := Network.ticks_program hduration hpos hrun
    have hzero : Network.runSlots env 0 (net, s) = .ok () (net, s) := rfl
    have hworld : ∀ {w}, Network.runSlots env (spans.sum ⌈/⌉ d) (net, s) = .ok () w →
        w = (net', s') := fun hw => (EStateM.Result.ok.inj (hw.symm.trans hrun)).2
    refine ⟨congrArg Network.asn ((Network.meets_runSlots_next _ net s).post hrun),
      (hticks.ends_forM_runFor hspans awaits_start hzero).mono ?_⟩
    rintro _ split ⟨hs, hat⟩
    refine ⟨hs.now_eq, hworld hat, fun hne => ?_⟩
    refine (hticks.ends_runFor_sum (List.sum_pos _ hspans hne) awaits_start hzero).mono ?_
    rintro _ single ⟨hs', hat'⟩
    exact ⟨hs'.now_eq.trans hs.now_eq.symm, (hworld hat').trans (hworld hat).symm⟩
  · refine (Started.ends_start hagenda hclocked hv hnew hduration hpos).mono ?_
    rintro _ start ⟨h, hlogs⟩ asn direct hdirect
    have hslots : Ends (runSlots handle (spans.sum ⌈/⌉ d)) start fun _ _ => True :=
      ends_iff.2 ⟨_, _, hdirect, trivial⟩
    have hasn := asn_of_runSlots h.found h.loggable hdirect
    have hworld : ∀ {w}, Reached handle start (spans.sum ⌈/⌉ d) w →
        unlogged w = unlogged direct.world := fun hw => (meets_false.2 hw).post hdirect
    rw [← hlogs] at hlog
    refine ⟨hasn, (h.ends_forM_runFor hslots hlog hspans).mono ?_⟩
    rintro _ split ⟨hs, hat⟩
    refine ⟨h.clock?_eq hs hat, ?_, hworld hat, fun hne => ?_⟩
    · rw [hasn]
      exact congrArg (Option.map (·.network.asn)) (hat.get? h.found h.loggable)
    · refine (h.ends_runFor_sum hslots hlog (List.sum_pos _ hspans hne)).mono ?_
      rintro _ single ⟨hs', hat'⟩
      exact ⟨(h.clock?_eq hs' hat').trans (h.clock?_eq hs hat).symm,
        (hworld hat').trans (hworld hat).symm⟩

def idleNetwork (d devices : Nat) : Network Nat ObserverRef Float where
  slots := .int 1
  channels := .int 1
  interference := ⟨[0]⟩
  slotDuration := .ok (.int d)
  traffic := .ok 0
  macs := List.range devices
  asn := 0
  started := false
  observers := .create (.text "transmission") (possessive Network.ownerLabel)

def idleMac (sink : SinkRef) : Mac SinkRef where
  name := .text "m"
  slots := .int 1
  channels := .int 1
  owned := [0]
  capacity := none
  links := .empty
  sequence := none
  queue := []
  sink := some sink
  asn := none

/-- A network in a new simulation, whose devices never transmit. -/
def idle (d : Nat) (threshold : Option Level) (sinks : List SinkRef) : Testbed where
  agenda := .fresh
  world := {
    generation := 1
    log := .fresh threshold
    macs := (sinks.map idleMac).toArray
    networks := #[{ network := idleNetwork d sinks.length, rng := 0 }] }

/-- A run that ends when a slot is due leaves that slot to the next one. -/
theorem splitting_changes_nothing_between_slots :
    (∀ span ∈ [3, 3, 1], 0 < span) ∧
    (∀ time, Starts 3 [3, 3, 1] time → time < Binary64.integerLimit) ∧
    Ends (startNetwork 0) (idle 3 (some .info) [.recording 0 "s" false]) fun _ start =>
      Ends ([3, 3, 1].forM fun span : Nat => runFor (.int span)) start fun _ split =>
        clock? split = some (.int 7) ∧
        (networks.get? 0 split).map (·.network.asn) = some 3 ∧
        split.world.macs.toList.map (·.asn) = [some 2] ∧
        split.world.records.length = 3 := by
  have hspans : ∀ span ∈ [3, 3, 1], 0 < span := by decide
  have hlog : ∀ time, Starts 3 [3, 3, 1] time → time < Binary64.integerLimit :=
    fun time h => h.1.trans (by decide +kernel)
  refine ⟨hspans, hlog, ?_⟩
  generalize hidle : idle 3 (some .info) [.recording 0 "s" false] = t
  have hdirect : Ends (startNetwork 0) t fun _ start =>
      Ends (runSlots 0 3) start fun asn direct =>
        asn = 3 ∧ direct.world.macs.toList.map (·.asn) = [some 2] ∧
          direct.world.records.length = 3 := by
    rw [← hidle]
    decide +kernel
  obtain ⟨_, start, hstart, hdirect⟩ := ends_iff.1 hdirect
  obtain ⟨_, direct, hrun, rfl, hmacs, hrecords⟩ := ends_iff.1 hdirect
  have hnetwork : networks.get? 0 t = some ⟨idleNetwork 3 1, 0⟩ := by
    rw [← hidle]
    rfl
  have h := (meets_false.2 ((splitting_changes_nothing (by decide) hspans).2 (hidle ▸ rfl)
    (hidle ▸ Nat.one_ne_zero) hnetwork rfl rfl (.inr hlog))).post hstart
  obtain ⟨-, hsplit⟩ := h _ _ hrun
  refine ends_iff.2 ⟨_, start, hstart, hsplit.mono ?_⟩
  rintro _ split ⟨hclock, hasn, hworld, -⟩
  refine ⟨hclock, hasn, ?_, ?_⟩
  · exact (congrArg (fun w : World => w.macs.toList.map (·.asn)) hworld).trans hmacs
  · exact (congrArg (fun w : World => w.records.length) hworld).trans hrecords

/-- The start of a run cannot be entered at a time beyond all binary64 numbers. -/
theorem settles_announce_of_late {time : Number} (hclock : clock? t = some time)
    (hlate : time.toFloat? = none) (hinfo : t.world.log.threshold = some .info) :
    Settles Simulation.announce t fun outcome _ => outcome = .error .tooLarge := by
  have hobstacle : Journal.obstacle? ⟨.simulation, true, none, .simulationRunning⟩ t =
      some .tooLarge := by
    show t.world.log.obstacle? (clock? t) _ = _
    simp [Log.obstacle?, Log.keeps, Note.wording, Note.isDatable, hinfo, hclock, hlate,
      Remark.level]
  rw [Simulation.announce, settles_note, hobstacle]

/-- Runs add up no more once the time is beyond all binary64 numbers: the next one cannot be
entered into the log, though slots could still be run directly. -/
theorem splitting_fails_beyond_floats :
    Ends (startNetwork 0) (idle (2 ^ 1024) (some .info) []) fun _ start =>
      Ends (runSlots 0 2) start (fun asn _ => asn = 2) ∧
      Settles ([2 ^ 1024, 1].forM fun span : Nat => runFor (.int span)) start fun outcome _ =>
        outcome = .error .tooLarge := by
  have hlimit : Binary64.integerLimit ≤ 2 ^ 1024 := by decide +kernel
  generalize 2 ^ 1024 = d at hlimit ⊢
  have hzero : 0 < Binary64.integerLimit := by decide +kernel
  have hpos : 0 < d := hzero.trans_le hlimit
  have hlate : (Number.int d).toFloat? = none := by
    rw [Number.toFloat?, Binary64.ofInt?, Int.natAbs_natCast, if_neg hlimit.not_gt]
  refine (Started.ends_start rfl Nat.one_ne_zero rfl rfl rfl hpos).mono ?_
  rintro _ start ⟨h, hlogs⟩
  have hslots : Ends (runSlots 0 2) start fun asn _ => asn = 2 := by
    rw [ends_runSlots h.found h.loggable]
    rfl
  have hfirst : Ends (runFor (.int d)) start fun _ t =>
      Awaits (.network 0) d d t.agenda ∧ Reached 0 start (d ⌈/⌉ d) t.world := by
    have hstarts : ∀ time, Starts d [d] time → time = 0 := by
      rintro time ⟨hlt, hdvd | ⟨past, hpast, rfl⟩⟩
      · exact Nat.eq_zero_of_dvd_of_lt hdvd hlt
      · cases past with
        | nil => rfl
        | cons span past =>
          obtain ⟨rfl, -⟩ := List.cons_prefix_cons.1 hpast
          simp at hlt
    have hround : d ⌈/⌉ d ≤ 2 := by
      rw [ceilDiv_le_iff_le_mul hpos]
      omega
    exact h.ends_runFor_sum (ends_runSlots_of_le h.found h.loggable hround
      (hslots.mono fun _ _ _ => trivial))
      (.inr fun time htime => (hstarts time htime).trans_lt hzero) hpos
  refine ⟨hslots, hfirst.settles_bind ?_⟩
  rintro _ t ⟨hs, hat⟩
  have hinfo : t.world.log.threshold = some .info := by
    rw [hat.threshold_eq h.found h.loggable, hlogs]
    rfl
  show Settles (runFor (.int (1 : Nat)) >>= fun _ => pure ()) t _
  rw [settles_bind, runFor, settles_bind]
  refine (settles_announce_of_late (h.clock?_eq hs hat) hlate hinfo).mono ?_
  rintro _ _ rfl
  rfl

end TschLearning.Testbed
