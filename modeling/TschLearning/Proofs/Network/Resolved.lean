import TschLearning.Proofs.Network.Episodes
import TschLearning.Proofs.Network.Staged

/-! Every slot of a network with tame handlers is an episode: stage by stage, what the network does
is what the account of the slot says. -/

namespace TschLearning.Network

open TschLearning.Action TschLearning.Shelf

variable {μ κ ο σ α : Type} [Journal σ] {env : Surroundings μ κ ο σ α} {ids rest : List μ}
  {early late : Mac κ → Mac κ → Prop} {slots channels : Nat} {directory : Directory μ κ}
  {log : List (Deed μ κ ο α)} {s : σ}

/-! ### The start of a slot -/

theorem ends_announce (hlaw : env.macs.Lawful fun _ => ()) (asn : Nat) (hnodup : ids.Nodup)
    (hs : ∀ i ∈ ids, ∃ m, env.macs.get? i s = some m) :
    Ends (announce env.logged asn ids) (log, s) fun _ p =>
      (p.1 = log ++ ids.filterMap fun i =>
        (env.macs.get? i s).map fun m => .set i (m.reached asn)) ∧
      env.macs.Altered ids (fun m m' => m' = m.reached asn) s p.2 ∧
      ∀ i ∉ ids, env.macs.get? i p.2 = env.macs.get? i s := by
  induction ids generalizing log s with
  | nil => exact ⟨by simp, fun i hi => absurd hi List.not_mem_nil, fun _ _ => rfl⟩
  | cons i rest ih =>
    rw [List.nodup_cons] at hnodup
    obtain ⟨m, hm⟩ := hs i List.mem_cons_self
    have hother : ∀ j ≠ i, ∀ u, env.macs.get? j (env.macs.put i u s) = env.macs.get? j s :=
      fun j hj u => hlaw.get?_put_of_ne hj u s
    have hrest : ∀ j ∈ rest, ∀ u, env.macs.get? j (env.macs.put i u s) = env.macs.get? j s :=
      fun j hj u => hother j (ne_of_mem_of_not_mem hj hnodup.1) u
    unfold announce
    simp only [ends_bind, ends_update, Surroundings.logged_get?, Surroundings.logged_put]
    refine ⟨m, (), m.reached asn, hm, rfl, ?_⟩
    have hs' : ∀ j ∈ rest, ∃ m', env.macs.get? j (env.macs.put i (m.reached asn) s) = some m' := by
      intro j hj
      rw [hrest j hj]
      exact hs j (List.mem_cons_of_mem i hj)
    refine (ih hnodup.2 hs').mono ?_
    rintro _ ⟨log', t⟩ ⟨hlog, hrests, helse⟩
    refine ⟨?_, ?_, ?_⟩
    · have hcongr : (rest.filterMap fun j =>
            (env.macs.get? j (env.macs.put i (m.reached asn) s)).map fun m =>
              (Deed.set j (m.reached asn) : Deed μ κ ο α))
          = rest.filterMap fun j => (env.macs.get? j s).map fun m => .set j (m.reached asn) := by
        apply List.filterMap_congr
        intro j hj
        rw [hrest j hj]
      simp only at hlog
      simp only [hlog, hcongr, List.filterMap_cons, hm, Option.map_some, List.append_assoc,
        List.singleton_append]
    · intro j hj a ha
      rcases List.mem_cons.1 hj with rfl | hj
      · obtain rfl := Option.some.inj (hm.symm.trans ha)
        exact ⟨_, (helse j hnodup.1).trans (hlaw.get?_put_self hm _), rfl⟩
      · exact hrests j hj a ((hrest j hj _).trans ha)
    · intro j hj
      rw [List.mem_cons, not_or] at hj
      exact (helse j hj.2).trans (hother j hj.1 _)

omit [Journal σ] in
theorem ends_sinksOf (hs : env.macs.Attached slots channels ids directory s) :
    Ends (sinksOf env.logged ids) (log, s) fun ks p =>
      ks = ids.filterMap directory.sink ∧ p = (log, s) := by
  induction ids with
  | nil => exact ⟨rfl, rfl⟩
  | cons i rest ih =>
    obtain ⟨m, hm, hsink, -⟩ := hs i List.mem_cons_self
    unfold sinksOf
    simp only [ends_bind, ends_read, Surroundings.logged_get?]
    refine ⟨m, hm, (ih fun j hj => hs j (List.mem_cons_of_mem i hj)).mono ?_⟩
    rintro ks _ ⟨rfl, rfl⟩
    refine ⟨?_, rfl⟩
    rw [hsink, List.filterMap_cons]
    cases directory.sink i <;> rfl

theorem endsOr_deliverBoundary (h : env.Tame ids early late)
    (hearly : Mac.Gentle slots channels early) (asn : Nat) (ks : List κ) :
    EndsOr Raised (deliverBoundary env.logged asn ks) (log, s) fun _ p =>
      p.1 = log ++ ks.map (fun k => .delivered (.boundary k asn) none) ∧
        env.macs.Altered ids early s p.2 := by
  induction ks generalizing log s with
  | nil => exact ⟨by simp, altered_of_get?_eq hearly.refl fun _ _ => rfl⟩
  | cons k rest ih =>
    unfold deliverBoundary
    rw [endsOr_bind]
    apply endsOr_delivered
    intro t ht
    refine ih.mono ?_
    rintro _ ⟨log', u⟩ ⟨hlog, hu⟩
    refine ⟨?_, (h.boundary ht).trans hearly.trans hu⟩
    rw [hlog, List.map_cons, List.append_assoc, List.singleton_append]

/-! ### Transmissions -/

section Transmissions

variable [Arith α] {q : α}

theorem ends_generate (h : env.Tame ids early late) {i : μ} (hi : i ∈ ids) {m : Mac κ}
    (hm : env.macs.get? i s = some m) :
    Ends (generate env.logged (.ok q) i) (log, s) fun _ p => ∃ draw,
      (Option.isSome draw = true ↔ Arith.lt 0 q = true) ∧
      p.1 = log ++ (draw.toList.map .drawn
        ++ if (Turn.mk i m draw).gains q then [.set i ((Turn.mk i m draw).supplied q)] else []) ∧
      env.macs.get? i p.2 = some ((Turn.mk i m draw).supplied q) ∧
      ∀ j ∈ ids, j ≠ i → env.macs.get? j p.2 = env.macs.get? j s := by
  unfold generate
  simp only [ends_bind, ends_ofExcept, Except.ok.injEq, exists_eq_left']
  cases hq : Arith.lt 0 q with
  | false => exact ⟨none, by simp, by simp [Turn.gains], hm, fun _ _ _ => rfl⟩
  | true =>
    simp only [if_true, ends_bind, ends_logged_uniform]
    obtain ⟨u, t, hu, hkept⟩ := h.uniform s
    refine ends_iff.2 ⟨u, t, hu, ?_⟩
    cases hlt : Arith.lt u q with
    | false =>
      have hgains : (Turn.mk i m (some u)).gains q = false := hlt
      refine ⟨some u, by simp, by simp [hgains], ?_, fun j hj _ => hkept j hj⟩
      rw [Turn.supplied, hgains, hkept i hi]
      exact hm
    | true =>
      have hgains : (Turn.mk i m (some u)).gains q = true := hlt
      have hm' : env.macs.get? i t = some m := (hkept i hi).trans hm
      simp only [if_true, ends_update, Surroundings.logged_get?, Surroundings.logged_put]
      refine ⟨m, (), m.request .null (.int 0), hm', rfl, some u, by simp, ?_, ?_, ?_⟩
      · simp [hgains, Turn.supplied]
      · rw [Turn.supplied, hgains]
        exact h.lawful.get?_put_self hm' _
      · exact fun j hj hne => (h.lawful.get?_put_of_ne hne _ _).trans (hkept j hj)

/-- The devices `rest` of a network have had their turns, between two states. -/
structure Served (env : Surroundings μ κ ο σ α) (ids rest : List μ) (q : α) (slot : Nat) (s : σ)
    (turns : List (Turn μ κ α)) (s' : σ) : Prop where
  device_eq : turns.map (·.device) = rest
  mac_eq : ∀ t ∈ turns, env.macs.get? t.device s = some t.mac
  fair : ∀ t ∈ turns, t.Fair q slot
  left_eq : ∀ t ∈ turns, env.macs.get? t.device s' = some (t.left q slot)
  kept : ∀ i ∈ ids, i ∉ rest → env.macs.get? i s' = env.macs.get? i s

omit [Journal σ] in
theorem Served.cons {i : μ} {slot : Nat} {s' s'' : σ} {turns : List (Turn μ κ α)}
    (hi : i ∈ ids) (hrest : rest ⊆ ids) (hnodup : i ∉ rest)
    (h : Served env ids rest q slot s' turns s'') {m : Mac κ} {draw : Option α}
    (hm : env.macs.get? i s = some m) (hfair : (Turn.mk i m draw).Fair q slot)
    (hleft : env.macs.get? i s' = some ((Turn.mk i m draw).left q slot))
    (hkept : ∀ j ∈ ids, j ≠ i → env.macs.get? j s' = env.macs.get? j s) :
    Served env ids (i :: rest) q slot s (⟨i, m, draw⟩ :: turns) s'' where
  device_eq := by rw [List.map_cons, h.device_eq]
  mac_eq := by
    intro t ht
    rcases List.mem_cons.1 ht with rfl | ht
    · exact hm
    · have hmem : t.device ∈ rest := h.device_eq ▸ List.mem_map_of_mem ht
      rw [← hkept _ (hrest hmem) (ne_of_mem_of_not_mem hmem hnodup)]
      exact h.mac_eq t ht
  fair := by
    intro t ht
    rcases List.mem_cons.1 ht with rfl | ht
    · exact hfair
    · exact h.fair t ht
  left_eq := by
    intro t ht
    rcases List.mem_cons.1 ht with rfl | ht
    · exact (h.kept i hi hnodup).trans hleft
    · exact h.left_eq t ht
  kept := by
    intro j hj hne
    rw [List.mem_cons, not_or] at hne
    exact (h.kept j hj hne.2).trans (hkept j hj hne.1)

omit [Journal σ] in
/-- The turn of a device: it transmits its first frame, if it has a channel. -/
def turn (env : Surroundings μ κ ο σ α) (traffic : Except Fault α) (slot : Datum) (i : μ) :
    Action σ (Option (μ × Int)) := do
  match ← Action.ofExcept ((← env.macs.read i).channelFor slot) with
  | none => return none
  | some channel =>
    generate env traffic i
    let frame ← env.macs.update i fun mac => .ok mac.popFrame
    return frame.map fun _ => (i, channel)

omit [Journal σ] in
theorem transmitters_cons (traffic : Except Fault α) (slot : Datum) (i : μ) (rest : List μ) :
    transmitters env traffic slot (i :: rest) = (do
      let sent ← turn env traffic slot i
      let others ← transmitters env traffic slot rest
      return sent.toList ++ others) := by
  rw [transmitters, turn, bind_assoc]
  congr 1
  funext mac
  rw [bind_assoc]
  congr 1
  funext channel?
  cases channel? with
  | none => simp
  | some channel =>
    simp only [bind_assoc, pure_bind]
    congr 1
    funext _
    congr 1
    funext frame
    cases frame <;> rfl

theorem ends_turn (h : env.Tame ids early late) (slot : Nat) {i : μ} (hi : i ∈ ids) {m : Mac κ}
    (hm : env.macs.get? i s = some m) :
    Ends (turn env.logged (.ok q) (.int slot) i) (log, s) fun sent p => ∃ draw,
      (Turn.mk i m draw).Fair q slot ∧ sent = (Turn.mk i m draw).transmission? q slot ∧
      p.1 = log ++ (Turn.mk i m draw).deeds q slot ∧
      env.macs.get? i p.2 = some ((Turn.mk i m draw).left q slot) ∧
      ∀ j ∈ ids, j ≠ i → env.macs.get? j p.2 = env.macs.get? j s := by
  unfold turn
  simp only [ends_bind, ends_read, Surroundings.logged_get?]
  refine ⟨m, hm, ?_⟩
  rw [ends_ofExcept]
  refine ⟨m.channelIn slot, rfl, ?_⟩
  cases hchannel : m.channelIn slot with
  | none =>
    have hnone : (Turn.mk i m (none : Option α)).channel? slot = none := hchannel
    refine ⟨none, ?_, ?_, ?_, ?_, fun _ _ _ => rfl⟩
    · simp [Turn.Fair, hnone]
    · simp [Turn.transmission?, hnone]
    · simp [Turn.deeds, hnone]
    · simp [Turn.left, hnone, hm]
  | some c =>
    simp only [ends_bind]
    refine (ends_generate h hi hm).mono ?_
    rintro _ ⟨_, u⟩ ⟨draw, hdraw, rfl, hsupplied, hkept⟩
    have hsome : (Turn.mk i m draw).channel? slot = some c := hchannel
    simp only [ends_update, ends_pure, Surroundings.logged_get?, Surroundings.logged_put]
    refine ⟨_, ((Turn.mk i m draw).supplied q).popFrame.1,
      ((Turn.mk i m draw).supplied q).popFrame.2, hsupplied, rfl, draw, ?_, ?_, ?_, ?_, ?_⟩
    · simp [Turn.Fair, hsome, hdraw]
    · rw [Turn.transmission?, hsome, Mac.popFrame_fst]
      rfl
    · simp [Turn.deeds, Turn.left, hsome]
    · rw [Turn.left, hsome]
      exact h.lawful.get?_put_self hsupplied _
    · exact fun j hj hne => (h.lawful.get?_put_of_ne hne _ _).trans (hkept j hj hne)

theorem ends_transmitters (h : env.Tame ids early late) (slot : Nat) (hrest : rest ⊆ ids)
    (hnodup : rest.Nodup) (hs : ∀ i ∈ rest, ∃ m, env.macs.get? i s = some m) :
    Ends (transmitters env.logged (.ok q) (.int slot) rest) (log, s) fun all p =>
      ∃ turns : List (Turn μ κ α), Served env ids rest q slot s turns p.2 ∧
        all = turns.filterMap (·.transmission? q slot) ∧
        p.1 = log ++ turns.flatMap (·.deeds q slot) := by
  induction rest generalizing log s with
  | nil =>
    refine ⟨[], ⟨rfl, ?_, ?_, ?_, fun _ _ _ => rfl⟩, rfl, by simp⟩
    all_goals exact fun t ht => absurd ht List.not_mem_nil
  | cons i rest ih =>
    rw [List.cons_subset] at hrest
    rw [List.nodup_cons] at hnodup
    obtain ⟨m, hm⟩ := hs i List.mem_cons_self
    rw [transmitters_cons, ends_bind]
    refine (ends_turn h slot hrest.1 hm).mono ?_
    rintro _ ⟨_, u⟩ ⟨draw, hfair, rfl, rfl, hleft, hkept⟩
    have hthere : ∀ j ∈ rest, ∃ m', env.macs.get? j u = some m' := by
      intro j hj
      rw [hkept j (hrest.2 hj) (ne_of_mem_of_not_mem hj hnodup.1)]
      exact hs j (List.mem_cons_of_mem i hj)
    rw [ends_bind]
    refine (ih hrest.2 hnodup.2 hthere).mono ?_
    rintro _ ⟨_, t⟩ ⟨turns, hserved, rfl, rfl⟩
    rw [ends_pure]
    refine ⟨⟨i, m, draw⟩ :: turns, ?_, ?_, ?_⟩
    · exact hserved.cons hrest.1 hrest.2 hnodup.1 hm hfair hleft hkept
    · rw [List.filterMap_cons]
      cases (Turn.mk i m draw).transmission? q slot <;> rfl
    · rw [List.flatMap_cons, List.append_assoc]

end Transmissions

/-! ### Outcomes -/

theorem ends_note (h : env.Tame ids early late) (n : Note) :
    Ends (Action.note n) (log, s) fun _ p =>
      p.1 = log ∧ ∀ i ∈ ids, env.macs.get? i p.2 = env.macs.get? i s := by
  rw [Action.ends_note]
  exact ⟨h.lawful.obstacle?_eq_none n s, rfl, fun i _ => h.lawful.get?_enter i n s⟩

/-- Every observer gets the record, in order. -/
theorem endsOr_trigger (h : env.Tame ids early late) (hlate : Mac.Gentle slots channels late)
    (observers : Notifier ο) (value : Datum) (r : TransmissionRecord μ) :
    EndsOr Raised (observers.trigger value (env.logged.observe · r)) (log, s)
      fun _ p => p.1 = log ++ observers.callees.map (fun o => .delivered (.record o r) none) ∧
        env.macs.Altered ids late s p.2 := by
  unfold Notifier.trigger
  rw [endsOr_bind]
  refine (ends_note h _).endsOr.mono ?_
  rintro _ ⟨log', t⟩ ⟨hlog, hkept⟩
  obtain rfl : log' = log := hlog
  have hnoted : env.macs.Altered ids late s t := altered_of_get?_eq hlate.refl hkept
  clear hkept
  induction observers.callees generalizing log' t with
  | nil => exact ⟨by simp, hnoted⟩
  | cons o rest ih =>
    show EndsOr _ (env.logged.observe o r >>= fun _ => rest.forM (env.logged.observe · r)) _ _
    rw [endsOr_bind]
    apply endsOr_delivered
    intro u hu
    refine (ih _ u (hnoted.trans hlate.trans (h.observe hu))).mono ?_
    rintro _ ⟨log', v⟩ ⟨hlog, hv⟩
    refine ⟨?_, hv⟩
    rw [hlog, List.map_cons, List.append_assoc, List.singleton_append]

/-- The sink of the sender gets the outcome of a transmission, and the observers get its record. -/
def report (env : Surroundings μ κ ο σ α) (observers : Notifier ο) (sink : Option κ)
    (r : TransmissionRecord μ) : Action σ Unit := do
  if let some k := sink then env.outcome k r.slot r.channel r.success
  observers.trigger (.text r.label) (env.observe · r)

theorem endsOr_report (h : env.Tame ids early late) (hlate : Mac.Gentle slots channels late)
    (observers : Notifier ο) (sink : Option κ) (r : TransmissionRecord μ) :
    EndsOr Raised (report env.logged observers sink r) (log, s) fun _ p =>
      p.1 = log ++ (sink.toList.map (fun k =>
          .delivered (.outcome k r.slot r.channel r.success) none)
        ++ observers.callees.map fun o => .delivered (.record o r) none) ∧
      env.macs.Altered ids late s p.2 := by
  cases sink with
  | none => exact endsOr_trigger h hlate observers _ r
  | some k =>
    show EndsOr _ (env.logged.outcome k r.slot r.channel r.success >>= fun _ =>
      observers.trigger (.text r.label) (env.logged.observe · r)) _ _
    rw [endsOr_bind]
    apply endsOr_delivered
    intro t ht
    refine (endsOr_trigger h hlate observers _ r).mono ?_
    rintro _ ⟨log', u⟩ ⟨hlog, hu⟩
    refine ⟨?_, (h.outcome ht).trans hlate.trans hu⟩
    rw [hlog, List.append_assoc]
    rfl

section Outcomes

variable [Arith α] {net : Network μ ο α}

theorem confirm_cons (slot : Datum) (all : List (μ × Int)) (i : μ) (channel : Int)
    (rest : List (μ × Int)) :
    confirm env net slot all ((i, channel) :: rest) = (do
      let mac ← env.macs.read i
      let status ← statusOf env net slot mac.label channel (all.countP (·.2 == channel))
      report env net.observers mac.sink
        { asn := net.asn, slot, channel, sender := i, senderName := mac.name, status }
      confirm env net slot all rest) := by
  rw [confirm]
  congr 1
  funext mac
  congr 1
  funext status
  simp only [report]
  cases mac.sink with
  | none => rfl
  | some k => simp only [bind_assoc]

/-- A transmission is disturbed by others on its channel, or else a number is drawn for it. -/
theorem ends_statusOf (h : env.Tame ids early late) (hnet : net.Regular slots channels)
    (slot : Datum) (name : String) (sender : μ) {c : Int} (hc : 0 ≤ c ∧ c < channels)
    (rivals : Nat) :
    Ends (statusOf env.logged net slot name c rivals) (log, s) fun status p => ∃ draw,
      (Option.isSome draw = true ↔ rivals ≤ 1) ∧
      status = (Confirmation.mk sender c draw).status net ∧
      p.1 = log ++ draw.toList.map .drawn ∧
      ∀ i ∈ ids, env.macs.get? i p.2 = env.macs.get? i s := by
  unfold statusOf
  by_cases hrivals : 1 < rivals
  · rw [if_pos hrivals, ends_bind]
    refine (ends_note h _).mono ?_
    rintro _ ⟨_, t⟩ ⟨rfl, hkept⟩
    exact ⟨none, by simp; omega, rfl, by simp, hkept⟩
  · obtain ⟨n, rfl⟩ := Int.eq_ofNat_of_zero_le hc.1
    obtain ⟨p, hp⟩ : ∃ p, net.interference.pick (.int n) = .ok p := by
      apply Coupled.pick_eq_ok
      · rw [hnet.interference_eq]
        exact Int.ofNat_lt.1 hc.2
      · rw [hnet.interference_eq]
        exact hnet.channels_lt
    simp only [if_neg hrivals, Interference.disturbed, ends_bind, ends_logged_uniform,
      ends_ofExcept]
    obtain ⟨u, t, hu, hkept⟩ := h.uniform s
    refine ends_iff.2 ⟨u, t, hu, p, hp, ?_⟩
    rw [ends_pure]
    have hstatus : (Confirmation.mk sender (n : Int) (some u)).status net
        = if Arith.lt u p then .noAck else .success := by
      rw [Confirmation.status, Interference.probability?_of_pick hp]
    cases hlt : Arith.lt u p with
    | false => exact ⟨some u, by simp; omega, by rw [hstatus, hlt]; rfl, by simp, hkept⟩
    | true => exact ⟨some u, by simp; omega, by rw [hstatus, hlt]; rfl, by simp, hkept⟩

/-- Every transmission is confirmed, in order. -/
theorem endsOr_confirm (h : env.Tame ids early late) (hlate : Mac.Gentle slots channels late)
    (hnet : net.Regular slots channels) (slot : Nat) (all : List (μ × Int))
    {rest : List (μ × Int)} (hrest : ∀ e ∈ rest, e.1 ∈ ids ∧ 0 ≤ e.2 ∧ e.2 < channels)
    (hs : env.macs.Attached slots channels ids directory s) :
    EndsOr Raised (confirm env.logged net (.int slot) all rest) (log, s) fun _ p =>
      ∃ confirmations : List (Confirmation μ α),
        confirmations.map (fun c => (c.sender, c.channel)) = rest ∧
        (∀ c ∈ confirmations, c.draw.isSome = true ↔ all.countP (·.2 == c.channel) ≤ 1) ∧
        p.1 = log ++ confirmations.flatMap (·.deeds net net.asn slot directory) ∧
        env.macs.Altered ids late s p.2 := by
  induction rest generalizing log s with
  | nil =>
    refine ⟨[], rfl, fun c hc => absurd hc List.not_mem_nil, by simp, ?_⟩
    exact altered_of_get?_eq hlate.refl fun _ _ => rfl
  | cons e rest ih =>
    obtain ⟨i, channel⟩ := e
    obtain ⟨hi, hchannel⟩ := hrest (i, channel) List.mem_cons_self
    obtain ⟨m, hm, hsink, hname, -⟩ := hs i hi
    have hread : Ends (env.logged.macs.read i) (log, s) fun mac p => mac = m ∧ p = (log, s) :=
      (ends_read _).2 ⟨m, hm, rfl, rfl⟩
    rw [confirm_cons, endsOr_bind]
    refine hread.endsOr.mono ?_
    rintro m _ ⟨rfl, rfl⟩
    rw [endsOr_bind]
    refine (ends_statusOf h hnet (.int slot) _ i hchannel _).endsOr.mono ?_
    rintro _ ⟨_, t⟩ ⟨draw, hdraw, rfl, rfl, hkept⟩
    have hrecord : TransmissionRecord.mk net.asn (.int slot) channel i m.name
          ((Confirmation.mk i channel draw).status net)
        = (Confirmation.mk i channel draw).record net net.asn slot directory := by
      rw [Confirmation.record, hname]
    rw [hrecord, hsink, endsOr_bind]
    refine (endsOr_report h hlate _ _ _).mono ?_
    rintro _ ⟨_, u⟩ ⟨rfl, hu⟩
    have hsu : env.macs.Altered ids late s u :=
      (altered_of_get?_eq hlate.refl hkept).trans hlate.trans hu
    have hrest' := fun e he => hrest e (List.mem_cons_of_mem _ he)
    refine (ih hrest' (hs.altered hlate.tended hsu)).mono ?_
    rintro _ ⟨_, v⟩ ⟨confirmations, hkeys, hdraws, rfl, hv⟩
    refine ⟨⟨i, channel, draw⟩ :: confirmations, ?_, ?_, ?_, hsu.trans hlate.trans hv⟩
    · rw [List.map_cons, hkeys]
    · intro c hc
      rcases List.mem_cons.1 hc with rfl | hc
      · exact hdraw
      · exact hdraws c hc
    · rw [List.flatMap_cons, Confirmation.deeds]
      simp only [List.append_assoc]
      rfl

end Outcomes

theorem endsOr_deliverOverheard [DecidableEq μ] (h : env.Tame ids early late)
    (hlate : Mac.Gentle slots channels late) (slot : Datum) (senders : List μ) (hrest : rest ⊆ ids)
    (hs : env.macs.Attached slots channels ids directory s) :
    EndsOr Raised (deliverOverheard env.logged slot senders rest) (log, s) fun _ p =>
      p.1 = log ++ ((rest.filter fun i => i ∉ senders).filterMap directory.sink).map
          (fun k => .delivered (.overheard k slot) none) ∧
        env.macs.Altered ids late s p.2 := by
  induction rest generalizing log s with
  | nil => exact ⟨by simp, altered_of_get?_eq hlate.refl fun _ _ => rfl⟩
  | cons i rest ih =>
    rw [List.cons_subset] at hrest
    obtain ⟨m, hm, hsink, -⟩ := hs i hrest.1
    have hread : Ends (env.logged.macs.read i) (log, s) fun mac p => mac = m ∧ p = (log, s) :=
      (ends_read _).2 ⟨m, hm, rfl, rfl⟩
    unfold deliverOverheard
    rw [endsOr_bind]
    refine hread.endsOr.mono ?_
    rintro m _ ⟨rfl, rfl⟩
    rw [hsink]
    cases hk : directory.sink i with
    | none =>
      by_cases hi : i ∈ senders
      · simpa [hi] using ih hrest.2 hs
      · simpa [hi, hk] using ih hrest.2 hs
    | some k =>
      by_cases hi : i ∈ senders
      · simpa [hi] using ih hrest.2 hs
      · simp only [if_pos hi]
        rw [endsOr_bind]
        apply endsOr_delivered
        intro t ht
        have hst := h.overheard ht
        refine (ih hrest.2 (hs.altered hlate.tended hst)).mono ?_
        rintro _ ⟨log', u⟩ ⟨hlog, hu⟩
        refine ⟨?_, hst.trans hlate.trans hu⟩
        rw [hlog]
        simp [hi, hk]

/-! ### Slots -/

section Slots

variable [DecidableEq μ] [DecidableEq κ] [Arith α] {net : Network μ ο α}

omit [DecidableEq κ] in
/-- The devices transmit, and the outcomes are delivered. -/
def resolution (env : Surroundings μ κ ο σ α) (net : Network μ ο α) (slot : Datum) :
    Action σ Unit := do
  let transmissions ← transmitters env net.traffic slot net.macs
  confirm env net slot transmissions transmissions
  if !transmissions.isEmpty then
    deliverOverheard env slot (transmissions.map (·.1)) net.macs

theorem runSlot_eq (env : Surroundings μ κ ο σ α) (net : Network μ ο α) :
    runSlot env net = (do
      let slot ← Action.ofExcept (slotAt net.slots net.asn)
      opening env net
      resolution env net slot
      return { net with asn := net.asn + 1 }) := by
  simp only [runSlot, opening, resolution, bind_assoc]
  congr 1
  funext slot
  congr 1
  funext _
  congr 1
  funext ks
  congr 1
  funext _
  congr 1
  funext transmissions
  congr 1
  funext _
  split <;> rfl

omit [DecidableEq μ] [Arith α] in
theorem agree_opening {τ : Type} [Journal τ] {R : σ → τ → Prop} {env' : Surroundings μ κ ο τ α}
    (h : Surroundings.Alike R env env') (net : Network μ ο α) :
    Agree R Eq (opening env net) (opening env' net) := by
  apply (agree_announce h _ _).bind
  intro _ _ _
  apply (agree_sinksOf h _).bind
  rintro ks _ rfl
  exact agree_deliverBoundary h _ _

omit [DecidableEq μ] [Arith α] in
/-- The devices know the slot number, and then the sinks do. -/
theorem endsOr_opening (h : env.Tame net.macs early late) (hearly : Mac.Gentle slots channels early)
    (hnodup : net.macs.Nodup) (hs : env.macs.Attached slots channels net.macs directory s) :
    EndsOr Raised (opening env.logged net) (log, s) fun _ p =>
      p.1 = log
        ++ (net.macs.filterMap fun i => (env.macs.get? i s).map fun m => .set i (m.reached net.asn))
        ++ (net.macs.filterMap directory.sink).eraseDups.map
          (fun k => .delivered (.boundary k net.asn) none) ∧
      env.macs.Altered net.macs (fun m m' => early (m.reached net.asn) m') s p.2 := by
  have hthere : ∀ i ∈ net.macs, ∃ m, env.macs.get? i s = some m := fun i hi =>
    (hs i hi).imp fun _ hm => hm.1
  unfold opening
  rw [endsOr_bind]
  refine (ends_announce h.lawful _ hnodup hthere).endsOr.mono ?_
  rintro _ ⟨_, t⟩ ⟨rfl, ht, -⟩
  have hreached : env.macs.Attached slots channels net.macs directory t := by
    refine hs.altered ?_ ht
    rintro m _ rfl
    exact ⟨rfl, rfl, fun hm => { hm with }⟩
  rw [endsOr_bind]
  refine (ends_sinksOf hreached).endsOr.mono ?_
  rintro _ _ ⟨rfl, rfl⟩
  refine (endsOr_deliverBoundary h hearly _ _).mono ?_
  rintro _ ⟨_, u⟩ ⟨rfl, hu⟩
  refine ⟨rfl, ?_⟩
  intro i hi m hm
  obtain ⟨_, hm', rfl⟩ := ht i hi m hm
  exact hu i hi _ hm'

omit [Journal σ] [DecidableEq μ] [DecidableEq κ] in
/-- The devices that had their turns are still what they have to be. -/
theorem Served.attached {q : α} {slot : Nat} {turns : List (Turn μ κ α)} {s' : σ}
    (h : Served env ids ids q slot s turns s')
    (hs : env.macs.Attached slots channels ids directory s) :
    env.macs.Attached slots channels ids directory s' := by
  intro i hi
  rw [← h.device_eq] at hi
  obtain ⟨t, ht, rfl⟩ := List.mem_map.1 hi
  have hmem : t.device ∈ ids := h.device_eq ▸ List.mem_map_of_mem ht
  obtain ⟨m, hm, hsink, hname, hwell⟩ := hs t.device hmem
  obtain rfl := Option.some.inj ((h.mac_eq t ht).symm.trans hm)
  obtain ⟨hsink', hname', hwell'⟩ := t.tended_left q slot slots channels
  exact ⟨_, h.left_eq t ht, hsink'.trans hsink, hname'.trans hname, hwell' hwell⟩

omit [Journal σ] [DecidableEq μ] [DecidableEq κ] in
/-- Devices of the network transmit on channels of the slotframe. -/
theorem Served.transmissions {q : α} {slot : Nat} {turns : List (Turn μ κ α)} {s' : σ}
    (h : Served env ids ids q slot s turns s')
    (hs : env.macs.Attached slots channels ids directory s) :
    ∀ e ∈ turns.filterMap (·.transmission? q slot),
      e.1 ∈ ids ∧ 0 ≤ e.2 ∧ e.2 < (channels : Int) := by
  intro e he
  obtain ⟨t, ht, hsend⟩ := List.mem_filterMap.1 he
  obtain ⟨hsender, hchannel, -⟩ := Turn.transmission?_eq_some_iff.1 hsend
  have hmem : t.device ∈ ids := h.device_eq ▸ List.mem_map_of_mem ht
  obtain ⟨m, hm, -, -, hwell⟩ := hs t.device hmem
  obtain rfl := Option.some.inj ((h.mac_eq t ht).symm.trans hm)
  exact ⟨hsender ▸ hmem, hwell.channelIn_lt hchannel⟩

omit [Journal σ] [DecidableEq μ] [DecidableEq κ] in
/-- Once every device had its turn, a number is drawn for a transmission if no other is on its
channel. -/
theorem Served.drawn_iff {q : α} {slot : Nat} {turns : List (Turn μ κ α)} {s' : σ}
    (h : Served env ids ids q slot s turns s') (hnodup : ids.Nodup)
    {confirmations : List (Confirmation μ α)}
    (hkeys : confirmations.map (fun c => (c.sender, c.channel))
      = turns.filterMap (·.transmission? q slot))
    (hdraws : ∀ c ∈ confirmations, c.draw.isSome = true ↔
      (turns.filterMap (·.transmission? q slot)).countP (·.2 == c.channel) ≤ 1) :
    ∀ c ∈ confirmations, c.draw.isSome = true ↔
      ∀ d ∈ confirmations, d.channel = c.channel → d.sender = c.sender := by
  have hsenders := (h.device_eq ▸ hnodup).sublist (Turn.sublist_transmissions q slot turns)
  rw [← hkeys] at hsenders
  intro c hc
  have hone := countP_le_one_iff hsenders (List.mem_map_of_mem hc)
  rw [hdraws c hc, ← hkeys]
  simpa only [List.forall_mem_map] using hone

omit [DecidableEq κ] in
/-- Every device has its turn, and then the outcomes are delivered in order. -/
theorem endsOr_resolution (h : env.Tame net.macs early late)
    (hlate : Mac.Gentle slots channels late) (hnet : net.Regular slots channels) {q : α}
    (hq : net.traffic = .ok q) (hnodup : net.macs.Nodup) (start : σ)
    (hs : env.macs.Attached slots channels net.macs directory s) :
    EndsOr Raised (resolution env.logged net (.int (net.asn % slots : Nat))) (log, s)
      fun _ p => ∃ e : Episode μ κ σ α, e.asn = net.asn ∧ e.start = start ∧ e.opened = s ∧
        e.finish = p.2 ∧ e.Resolved env net slots q ∧
        (∀ t ∈ e.turns, ∃ m, env.macs.get? t.device e.finish = some m ∧
          late (t.left q (e.slot slots)) m) ∧
        p.1 = log ++ e.turns.flatMap (·.deeds q (e.slot slots))
          ++ e.confirmations.flatMap (·.deeds net e.asn (e.slot slots) directory)
          ++ e.overhearings net slots directory ∧
        env.macs.Attached slots channels net.macs directory p.2 := by
  unfold resolution
  rw [hq, endsOr_bind]
  refine (ends_transmitters h (net.asn % slots) (List.Subset.refl _) hnodup
    fun i hi => (hs i hi).imp fun _ hm => hm.1).endsOr.mono ?_
  rintro _ ⟨_, sent⟩ ⟨turns, hserved, rfl, rfl⟩
  have hdevice : ∀ t ∈ turns, t.device ∈ net.macs := fun t ht =>
    hserved.device_eq ▸ List.mem_map_of_mem ht
  have hs' := hserved.attached hs
  rw [endsOr_bind]
  refine (endsOr_confirm h hlate hnet _ _ (hserved.transmissions hs) hs').mono ?_
  rintro _ ⟨_, told⟩ ⟨confirmations, hkeys, hdraws, rfl, htold⟩
  have halone := hserved.drawn_iff hnodup hkeys hdraws
  -- the account of the slot, whatever state it ends in
  have haccount : ∀ finish, env.macs.Altered net.macs late sent finish →
      ∃ e : Episode μ κ σ α, e = ⟨net.asn, start, s, finish, turns, confirmations⟩ ∧
        e.Resolved env net slots q ∧
        (∀ t ∈ e.turns, ∃ m, env.macs.get? t.device e.finish = some m ∧
          late (t.left q (e.slot slots)) m) ∧
        env.macs.Attached slots channels net.macs directory finish := by
    intro finish hfinish
    refine ⟨_, rfl, ⟨hserved.device_eq, hserved.mac_eq, hserved.fair, hkeys, halone⟩, ?_,
      hs'.altered hlate.tended hfinish⟩
    exact fun t ht => hfinish t.device (hdevice t ht) _ (hserved.left_eq t ht)
  cases confirmations with
  | nil =>
    obtain ⟨e, rfl, hresolved, hleft, hfinish⟩ := haccount told htold
    rw [← hkeys]
    exact ⟨_, rfl, rfl, rfl, rfl, hresolved, hleft, by simp [Episode.overhearings, Episode.slot],
      hfinish⟩
  | cons c rest =>
    rw [← hkeys]
    simp only [List.map_cons, List.isEmpty_cons, Bool.not_false, if_true]
    refine (endsOr_deliverOverheard h hlate _ _ (List.Subset.refl _)
      (hs'.altered hlate.tended htold)).mono ?_
    rintro _ ⟨_, finish⟩ ⟨rfl, hfinish⟩
    obtain ⟨e, rfl, hresolved, hleft, hfinish⟩ :=
      haccount finish (htold.trans hlate.trans hfinish)
    refine ⟨_, rfl, rfl, rfl, rfl, hresolved, hleft, ?_, hfinish⟩
    simp [Episode.overhearings, Episode.slot]

variable (net) in
/-- A slot of a network with tame handlers is an episode, unless a handler raises a fault. -/
theorem endsOr_runSlot (h : env.Tame net.macs early late) (hearly : Mac.Gentle slots channels early)
    (hlate : Mac.Gentle slots channels late) (hnet : net.Regular slots channels) {q : α}
    (hq : net.traffic = .ok q) (hnodup : net.macs.Nodup)
    (hs : env.macs.Attached slots channels net.macs directory s) :
    EndsOr Raised (runSlot env.logged net) (log, s) fun next p =>
      ∃ e : Episode μ κ σ α, e.asn = net.asn ∧ e.start = s ∧ e.finish = p.2 ∧
        next = { net with asn := net.asn + 1 } ∧
        e.Valid env net slots q ∧ e.Moved env net slots q early late ∧
        p.1 = log ++ e.deeds env net slots q directory ∧
        env.macs.Attached slots channels net.macs directory p.2 := by
  suffices hsuff : EndsOr Raised (runSlot env.logged net) (log, s) fun next p =>
      ∃ e : Episode μ κ σ α, e.asn = net.asn ∧ e.start = s ∧ e.finish = p.2 ∧
        next = { net with asn := net.asn + 1 } ∧
        (opening env net s = .ok () e.opened ∧ e.Resolved env net slots q) ∧
        e.Moved env net slots q early late ∧
        p.1 = log ++ e.deeds env net slots q directory ∧
        env.macs.Attached slots channels net.macs directory p.2 by
    refine hsuff.ran.mono ?_
    rintro _ p ⟨⟨e, hasn, hstart, hfinish, rfl, ⟨hopens, hresolved⟩, hmoved, hlog, hp⟩, hran⟩
    have hruns := eq_ok_of_entered (agree_runSlot net (logged_alike env)) hran
    refine ⟨e, hasn, hstart, hfinish, rfl, ⟨hresolved, ?_, ?_⟩, hmoved, hlog, hp⟩
    · rw [hasn, hstart, hfinish]
      exact hruns
    · rw [hasn, hstart]
      exact hopens
  rw [runSlot_eq, hnet.slots_eq, Coupled.slotAt_eq_ok hnet.slots_pos]
  show EndsOr _ (opening env.logged net >>= fun _ => _) _ _
  rw [endsOr_bind]
  refine (endsOr_opening h hearly hnodup hs).ran.mono ?_
  rintro _ ⟨_, opened⟩ ⟨⟨rfl, hopened⟩, hran⟩
  have hopens := eq_ok_of_entered (agree_opening (logged_alike env) net) hran
  have hs₁ : env.macs.Attached slots channels net.macs directory opened := by
    refine hs.altered (fun {m m'} hR => ?_) hopened
    obtain ⟨hsink, hname, hwell⟩ := hearly.tended hR
    exact ⟨hsink, hname, fun hm => hwell { hm with }⟩
  rw [endsOr_bind]
  refine (endsOr_resolution h hlate hnet hq hnodup s hs₁).mono ?_
  rintro _ ⟨_, finish⟩ ⟨e, hasn, hstart, rfl, rfl, hresolved, hleft, rfl, hfinish⟩
  refine ⟨e, hasn, hstart, rfl, rfl, ⟨hopens, hresolved⟩, ⟨?_, hleft⟩, ?_, hfinish⟩
  · rw [hasn, hstart]
    exact hopened
  · simp only [Episode.deeds, Episode.announcements, Episode.boundaries, hasn, hstart,
      List.append_assoc]

end Slots

end TschLearning.Network
