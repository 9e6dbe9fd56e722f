import TschLearning.Proofs.Action.Meets
import TschLearning.Proofs.Network.Coupled

/-! The slots of a network, device by device. In every slot each device goes through the same
stages, whatever the others do meanwhile. An assertion about the stages of all devices that every
single event keeps holds at the end of any number of slots. -/

namespace TschLearning

/-- How far a device has come in a slot. -/
inductive Stage where
  | resting
  -- the device knows the number of the slot
  | announced
  -- its sink knows it too
  | begun
  -- it does not transmit
  | silent
  -- a frame has left its queue
  | sent (channel : Int)
  -- its sink knows the outcome
  | told (channel : Int) (success : Bool)
  -- the observers know the outcome too
  | over

namespace Stage

/-- The stage in which a device learns whether it has a channel for the slot. -/
def ready {κ : Type} (sink : Option κ) : Stage := if sink.isSome then .begun else .announced

def isKnown : Stage → Bool
  | .resting => false
  | _ => true

def isBegun : Stage → Bool
  | .resting | .announced => false
  | _ => true

def isSent : Stage → Bool
  | .sent _ => true
  | _ => false

end Stage

theorem Notifier.meets_trigger {κ σ : Type} [Journal σ] {lenient : Prop} {P : σ → Prop}
    (n : Notifier κ) (value : Datum) {call : κ → Action σ Unit} {s : σ}
    (hnote : ∀ (n : Note) s, P s → Action.Meets lenient (Action.note n) s fun _ => P)
    (hcall : ∀ c s, P s → Action.Meets lenient (call c) s fun _ => P) (hs : P s) :
    Action.Meets lenient (n.trigger value call) s fun _ => P := by
  unfold Notifier.trigger
  rw [Action.meets_bind]
  refine (hnote _ _ hs).mono fun _ t ht => ?_
  induction n.callees generalizing t with
  | nil => exact ht
  | cons c rest ih =>
    show Action.Meets lenient (call c >>= fun _ => rest.forM call) t _
    rw [Action.meets_bind]
    exact (hcall c t ht).mono fun _ u hu => ih u hu

/-- Whether there is interference is a matter of draws. -/
theorem Interference.meets_disturbed {σ α : Type} [Arith α] {lenient : Prop} {P : σ → Prop}
    {draws : Draws σ α} {m : Interference α} {channel : Datum} {s : σ}
    (huniform : Action.Meets lenient draws.uniform s fun _ => P)
    (hpick : (∃ p, m.pick channel = .ok p) ∨ lenient) :
    Action.Meets lenient (m.disturbed draws channel) s fun _ => P := by
  unfold disturbed
  rw [Action.meets_bind]
  refine huniform.mono fun _ t ht => ?_
  rw [Action.meets_bind]
  exact Action.meets_ofExcept_of hpick fun _ _ => ht

namespace Network

open TschLearning.Action Function

variable {μ κ ο σ α : Type} [DecidableEq μ] [DecidableEq κ] [Arith α] [Journal σ]

/-- The events of a slot, one device at a time, keep an assertion about the stages of the
devices. Faults are let pass if `lenient` holds, and boundaries come before the slot `last`. -/
structure Staged (lenient : Prop) (env : Surroundings μ κ ο σ α) (net : Network μ ο α)
    (sinks : μ → Option κ) (names : μ → Datum) (last : Nat)
    (Inv : Nat → (μ → Stage) → σ → Prop) : Prop where
  nodup : net.macs.Nodup
  traffic : ∃ q, net.traffic = .ok q ∧ Arith.lt 0 q = false
  slots : ∀ asn, (∃ slot, slotAt net.slots asn = .ok slot) ∨ lenient
  device : ∀ {asn stage s m}, Inv asn stage s → m ∈ net.macs →
    (env.macs.get? m s = none → lenient) ∧
      ∀ mac, env.macs.get? m s = some mac → mac.sink = sinks m ∧ mac.name = names m
  announce : ∀ {asn stage s m mac}, Inv asn stage s → m ∈ net.macs → stage m = .resting →
    env.macs.get? m s = some mac →
    Inv asn (update stage m .announced) (env.macs.put m { mac with asn := some asn } s)
  boundary : ∀ {asn stage s k}, Inv asn stage s → asn < last →
    (∃ m ∈ net.macs, sinks m = some k) →
    (∀ m ∈ net.macs, sinks m = some k → stage m = .announced) →
    Meets lenient (env.boundary k asn) s fun _ =>
      Inv asn fun m => if sinks m = some k then .begun else stage m
  channel : ∀ {asn stage s m mac slot}, Inv asn stage s → m ∈ net.macs →
    env.macs.get? m s = some mac → slotAt net.slots asn = .ok slot →
    (∃ channel, mac.channelFor slot = .ok channel) ∨ lenient
  pass : ∀ {asn stage s m mac slot}, Inv asn stage s → m ∈ net.macs →
    stage m = Stage.ready (sinks m) → env.macs.get? m s = some mac →
    slotAt net.slots asn = .ok slot → mac.channelFor slot = .ok none →
    Inv asn (update stage m .silent) s
  idle : ∀ {asn stage s m mac}, Inv asn stage s → m ∈ net.macs →
    stage m = Stage.ready (sinks m) → env.macs.get? m s = some mac → mac.queue = [] →
    Inv asn (update stage m .silent) (env.macs.put m mac s)
  send : ∀ {asn stage s m mac slot channel f rest}, Inv asn stage s → m ∈ net.macs →
    stage m = Stage.ready (sinks m) → env.macs.get? m s = some mac →
    slotAt net.slots asn = .ok slot → mac.channelFor slot = .ok (some channel) →
    mac.queue = f :: rest →
    Inv asn (update stage m (.sent channel)) (env.macs.put m { mac with queue := rest } s)
  note : ∀ {asn stage s} (n : Note), Inv asn stage s →
    Meets lenient (Action.note n) s fun _ => Inv asn stage
  disturbed : ∀ {asn stage s m channel}, Inv asn stage s → m ∈ net.macs →
    stage m = .sent channel →
    Meets lenient (net.interference.disturbed env.draws (.int channel)) s fun _ => Inv asn stage
  outcome : ∀ {asn stage s m channel slot k} (success : Bool), Inv asn stage s → m ∈ net.macs →
    stage m = .sent channel → slotAt net.slots asn = .ok slot → sinks m = some k →
    Meets lenient (env.outcome k slot channel success) s fun _ =>
      Inv asn (update stage m (.told channel success))
  unheard : ∀ {asn stage s m channel} (success : Bool), Inv asn stage s → m ∈ net.macs →
    stage m = .sent channel → sinks m = none → Inv asn (update stage m (.told channel success)) s
  record : ∀ {asn stage s} {r : TransmissionRecord μ} (text : Datum), Inv asn stage s →
    r.sender ∈ net.macs → r.asn = asn → slotAt net.slots asn = .ok r.slot →
    r.senderName = names r.sender → stage r.sender = .told r.channel r.success →
    Meets lenient (net.observers.trigger text (env.observe · r)) s
      fun _ => Inv asn (update stage r.sender .over)
  overheard : ∀ {asn stage s m slot k}, Inv asn stage s → m ∈ net.macs → stage m = .silent →
    slotAt net.slots asn = .ok slot → sinks m = some k →
    Meets lenient (env.overheard k slot) s fun _ => Inv asn stage
  passed : ∀ {asn stage s}, Inv asn stage s →
    (∀ m ∈ net.macs, stage m = .silent ∨ stage m = .over) → Inv (asn + 1) (fun _ => .resting) s

variable {lenient : Prop} {env : Surroundings μ κ ο σ α} {net : Network μ ο α}
  {sinks : μ → Option κ} {names : μ → Datum} {last : Nat} {Inv : Nat → (μ → Stage) → σ → Prop}
  {stage : μ → Stage} {asn : Nat} {slot : Datum} {s : σ}

/-- Beyond some devices, the stages are as they were. -/
def Elsewhere (ids : List μ) (stage stage' : μ → Stage) : Prop :=
  ∀ m, m ∉ ids → stage' m = stage m

theorem Elsewhere.cons {ids : List μ} {stage' : μ → Stage} {m : μ} {x : Stage}
    (h : Elsewhere ids (update stage m x) stage') : Elsewhere (m :: ids) stage stage' := by
  intro i hi
  rw [List.mem_cons, not_or] at hi
  rw [h i hi.2, update_of_ne hi.1]

theorem Elsewhere.eq_of_update {ids : List μ} {stage' : μ → Stage} {m : μ} {x : Stage}
    (h : Elsewhere ids (update stage m x) stage') (hm : m ∉ ids) : stage' m = x := by
  rw [h m hm, update_self]

theorem forall_mem_update {ids : List μ} {m : μ} {x : Stage} {p : μ → Stage → Prop}
    (h : ∀ i ∈ ids, p i (stage i)) (hm : m ∉ ids) : ∀ i ∈ ids, p i (update stage m x i) := by
  intro i hi
  rw [update_of_ne (ne_of_mem_of_not_mem hi hm)]
  exact h i hi

namespace Staged

/-! ### The start of a slot -/

theorem meets_announce (h : Staged lenient env net sinks names last Inv) (hs : Inv asn stage s)
    {ids : List μ} (hids : ids ⊆ net.macs) (hnodup : ids.Nodup)
    (hstage : ∀ m ∈ ids, stage m = .resting) :
    Meets lenient (Network.announce env asn ids) s fun _ t => ∃ stage',
      ((∀ m ∈ ids, stage' m = .announced) ∧ Elsewhere ids stage stage') ∧ Inv asn stage' t := by
  induction ids generalizing stage s with
  | nil => exact ⟨stage, ⟨fun m hm => absurd hm List.not_mem_nil, fun _ _ => rfl⟩, hs⟩
  | cons m rest ih =>
    rw [List.cons_subset] at hids
    rw [List.nodup_cons] at hnodup
    rw [List.forall_mem_cons] at hstage
    obtain ⟨hmissing, -⟩ := h.device hs hids.1
    unfold Network.announce
    rw [meets_bind]
    refine Shelf.meets_update _ ?_ hmissing fun _ _ _ hf => by cases hf
    rintro mac _ _ hmac ⟨⟩
    refine (ih (h.announce hs hids.1 hstage.1 hmac) hids.2 hnodup.2
      (forall_mem_update (p := fun _ x => x = .resting) hstage.2 hnodup.1)).mono ?_
    rintro _ t ⟨stage', ⟨hall, helse⟩, ht⟩
    exact ⟨stage', ⟨List.forall_mem_cons.2 ⟨helse.eq_of_update hnodup.1, hall⟩, helse.cons⟩, ht⟩

theorem meets_sinksOf (h : Staged lenient env net sinks names last Inv) (hs : Inv asn stage s)
    {ids : List μ} (hids : ids ⊆ net.macs) :
    Meets lenient (sinksOf env ids) s fun ks t =>
      ks = ids.flatMap (fun m => (sinks m).toList) ∧ t = s := by
  induction ids with
  | nil => exact ⟨rfl, rfl⟩
  | cons m rest ih =>
    rw [List.cons_subset] at hids
    obtain ⟨hmissing, hmac⟩ := h.device hs hids.1
    unfold sinksOf
    rw [meets_bind]
    refine Shelf.meets_read _ (fun mac hget => ?_) hmissing
    rw [meets_bind]
    refine (ih hids.2).mono ?_
    rintro ks _ ⟨rfl, rfl⟩
    exact ⟨by rw [(hmac mac hget).1, List.flatMap_cons], rfl⟩

theorem nodup_eraseDups {β : Type} [BEq β] [LawfulBEq β] (xs : List β) : xs.eraseDups.Nodup := by
  match xs with
  | [] => exact List.nodup_nil
  | x :: xs =>
    rw [List.eraseDups_cons, List.nodup_cons]
    refine ⟨fun hx => ?_, nodup_eraseDups _⟩
    rw [List.mem_eraseDups, List.mem_filter] at hx
    simp at hx
termination_by xs.length
decreasing_by
  simp only [List.length_cons]
  exact Nat.lt_succ_of_le (List.length_filter_le ..)

theorem meets_deliverBoundary (h : Staged lenient env net sinks names last Inv)
    (hs : Inv asn stage s) (hasn : asn < last) {ks : List κ} (hnodup : ks.Nodup)
    (hks : ∀ k ∈ ks, (∃ m ∈ net.macs, sinks m = some k) ∧
      ∀ m ∈ net.macs, sinks m = some k → stage m = .announced) :
    Meets lenient (deliverBoundary env asn ks) s fun _ t => ∃ stage',
      (∀ m, stage' m = if ∃ k ∈ ks, sinks m = some k then .begun else stage m) ∧
        Inv asn stage' t := by
  induction ks generalizing stage s with
  | nil => exact ⟨stage, fun m => by simp, hs⟩
  | cons k rest ih =>
    rw [List.nodup_cons] at hnodup
    rw [List.forall_mem_cons] at hks
    unfold deliverBoundary
    rw [meets_bind]
    refine (h.boundary hs hasn hks.1.1 hks.1.2).mono fun _ t ht => ?_
    refine (ih ht hnodup.2 fun j hj => ⟨(hks.2 j hj).1, fun m hm hsink => ?_⟩).mono ?_
    · have hne : sinks m ≠ some k := by
        rw [hsink, Ne, Option.some.injEq]
        exact ne_of_mem_of_not_mem hj hnodup.1
      rw [if_neg hne]
      exact (hks.2 j hj).2 m hm hsink
    · rintro _ t ⟨stage', hall, ht⟩
      refine ⟨stage', fun m => ?_, ht⟩
      rw [hall m]
      by_cases hk : sinks m = some k
      · simp [hk]
      · simp [hk]

/-- Every device is ready once the boundary was delivered to all sinks. -/
theorem meets_begin (h : Staged lenient env net sinks names last Inv) (hs : Inv asn stage s)
    (hasn : asn < last) (hstage : ∀ m ∈ net.macs, stage m = .announced) :
    Meets lenient (do deliverBoundary env asn (← sinksOf env net.macs).eraseDups) s fun _ t =>
      ∃ stage', (∀ m ∈ net.macs, stage' m = Stage.ready (sinks m)) ∧ Inv asn stage' t := by
  rw [meets_bind]
  refine (h.meets_sinksOf hs (List.Subset.refl _)).mono ?_
  rintro ks _ ⟨rfl, rfl⟩
  have hmem : ∀ k, k ∈ (net.macs.flatMap fun m => (sinks m).toList).eraseDups ↔
      ∃ m ∈ net.macs, sinks m = some k := by
    intro k
    simp only [List.mem_eraseDups, List.mem_flatMap, Option.mem_toList]
  refine (h.meets_deliverBoundary hs hasn (nodup_eraseDups _) fun k hk =>
    ⟨(hmem k).1 hk, fun m hm _ => hstage m hm⟩).mono ?_
  rintro _ t ⟨stage', hall, ht⟩
  refine ⟨stage', fun m hm => ?_, ht⟩
  rw [hall m, Stage.ready]
  cases hsink : sinks m with
  | none => simp [hstage m hm]
  | some k =>
    have hk := (hmem k).2 ⟨m, hm, hsink⟩
    rw [if_pos ⟨k, hk, rfl⟩]
    rfl

/-! ### Transmissions -/

omit [DecidableEq μ] [DecidableEq κ] [Journal σ] in
/-- Without traffic no device gets a frame of its own. -/
theorem generate_eq_pure {q : α} (hq : Arith.lt 0 q = false) (m : μ) :
    generate env (.ok q) m = pure () := by
  unfold generate
  exact if_neg (Bool.eq_false_iff.1 hq)

/-- The devices that transmit have sent a frame, and the others are silent. -/
def Sorted (ids : List μ) (all : List (μ × Int)) (stage : μ → Stage) : Prop :=
  all.map (·.1) ⊆ ids ∧ (all.map (·.1)).Nodup ∧ (∀ e ∈ all, stage e.1 = .sent e.2) ∧
    ∀ m ∈ ids, m ∉ all.map (·.1) → stage m = .silent

theorem meets_transmitters (h : Staged lenient env net sinks names last Inv)
    (hs : Inv asn stage s) (hslot : slotAt net.slots asn = .ok slot) {ids : List μ}
    (hids : ids ⊆ net.macs) (hnodup : ids.Nodup)
    (hstage : ∀ m ∈ ids, stage m = Stage.ready (sinks m)) :
    Meets lenient (transmitters env net.traffic slot ids) s fun all t => ∃ stage',
      (Sorted ids all stage' ∧ Elsewhere ids stage stage') ∧ Inv asn stage' t := by
  obtain ⟨q, htraffic, hq⟩ := h.traffic
  rw [htraffic]
  induction ids generalizing stage s with
  | nil =>
    refine ⟨stage, ⟨⟨List.Subset.refl _, List.nodup_nil, ?_, ?_⟩, fun _ _ => rfl⟩, hs⟩
    · exact fun e he => absurd he List.not_mem_nil
    · exact fun m hm => absurd hm List.not_mem_nil
  | cons m rest ih =>
    rw [List.cons_subset] at hids
    rw [List.nodup_cons] at hnodup
    rw [List.forall_mem_cons] at hstage
    obtain ⟨hmissing, -⟩ := h.device hs hids.1
    have hrest : ∀ x, ∀ i ∈ rest, update stage m x i = Stage.ready (sinks i) := fun x =>
      forall_mem_update (p := fun i y => y = Stage.ready (sinks i)) hstage.2 hnodup.1
    -- the devices behind `m`, if it stays silent
    have hsilent : ∀ {t}, Inv asn (update stage m .silent) t →
        Meets lenient (transmitters env (.ok q) slot rest) t fun all u => ∃ stage',
          (Sorted (m :: rest) all stage' ∧ Elsewhere (m :: rest) stage stage') ∧
            Inv asn stage' u := by
      intro t ht
      refine (ih ht hids.2 hnodup.2 (hrest _)).mono ?_
      rintro all u ⟨stage', ⟨⟨hsub, hnd, hsent, hsil⟩, helse⟩, hu⟩
      refine ⟨stage', ⟨⟨List.subset_cons_of_subset m hsub, hnd, hsent, ?_⟩, helse.cons⟩, hu⟩
      exact List.forall_mem_cons.2 ⟨fun _ => helse.eq_of_update hnodup.1, hsil⟩
    unfold transmitters
    rw [meets_bind]
    refine Shelf.meets_read _ (fun mac hmac => ?_) hmissing
    rw [meets_bind]
    refine meets_ofExcept_of (h.channel hs hids.1 hmac hslot) ?_
    rintro (_ | c) hchannel
    · exact hsilent (h.pass hs hids.1 hstage.1 hmac hslot hchannel)
    · simp only [generate_eq_pure hq, pure_bind]
      rw [meets_bind]
      refine Shelf.meets_update _ ?_ hmissing fun _ _ _ hf => by cases hf
      intro mac' frame mac'' hmac' hpop
      obtain rfl : mac = mac' := Option.some.inj (hmac.symm.trans hmac')
      cases hqueue : mac.queue with
      | nil =>
        simp only [Mac.popFrame, hqueue, Except.ok.injEq, Prod.mk.injEq] at hpop
        obtain ⟨rfl, rfl⟩ := hpop
        rw [meets_bind]
        exact hsilent (h.idle hs hids.1 hstage.1 hmac hqueue)
      | cons f queue =>
        simp only [Mac.popFrame, hqueue, Except.ok.injEq, Prod.mk.injEq] at hpop
        obtain ⟨rfl, rfl⟩ := hpop
        rw [meets_bind]
        refine (ih (h.send hs hids.1 hstage.1 hmac hslot hchannel hqueue) hids.2 hnodup.2
          (hrest _)).mono ?_
        rintro all u ⟨stage', ⟨⟨hsub, hnd, hsent, hsil⟩, helse⟩, hu⟩
        refine ⟨stage', ⟨⟨?_, ?_, ?_, ?_⟩, helse.cons⟩, hu⟩
        · exact List.cons_subset_cons m hsub
        · exact List.nodup_cons.2 ⟨fun hm => hnodup.1 (hsub hm), hnd⟩
        · exact List.forall_mem_cons.2 ⟨helse.eq_of_update hnodup.1, hsent⟩
        · refine List.forall_mem_cons.2 ⟨fun hm => absurd List.mem_cons_self hm, ?_⟩
          exact fun i hi hni => hsil i hi fun hmem => hni (List.mem_cons_of_mem m hmem)

theorem meets_statusOf (h : Staged lenient env net sinks names last Inv) (hs : Inv asn stage s)
    {m : μ} (hm : m ∈ net.macs) {channel : Int} (hstage : stage m = .sent channel)
    (sender : String) (rivals : Nat) :
    Meets lenient (statusOf env net slot sender channel rivals) s fun _ => Inv asn stage := by
  unfold statusOf
  split
  · rw [meets_bind]
    exact h.note _ hs
  · rw [meets_bind]
    refine (h.disturbed hs hm hstage).mono fun disturbed t ht => ?_
    cases disturbed <;> exact ht

theorem meets_confirm (h : Staged lenient env net sinks names last Inv) (hs : Inv asn stage s)
    (hasn : net.asn = asn) (hslot : slotAt net.slots asn = .ok slot) (all : List (μ × Int))
    {rest : List (μ × Int)} (hids : rest.map (·.1) ⊆ net.macs) (hnodup : (rest.map (·.1)).Nodup)
    (hstage : ∀ e ∈ rest, stage e.1 = .sent e.2) :
    Meets lenient (confirm env net slot all rest) s fun _ t => ∃ stage',
      ((∀ m ∈ rest.map (·.1), stage' m = .over) ∧ Elsewhere (rest.map (·.1)) stage stage') ∧
        Inv asn stage' t := by
  subst hasn
  induction rest generalizing stage s with
  | nil => exact ⟨stage, ⟨fun m hm => absurd hm List.not_mem_nil, fun _ _ => rfl⟩, hs⟩
  | cons e rest ih =>
    obtain ⟨m, channel⟩ := e
    rw [List.map_cons, List.cons_subset] at hids
    rw [List.map_cons, List.nodup_cons] at hnodup
    rw [List.forall_mem_cons] at hstage
    obtain ⟨hmissing, hmac⟩ := h.device hs hids.1
    unfold confirm
    rw [meets_bind]
    refine Shelf.meets_read _ (fun mac hget => ?_) hmissing
    obtain ⟨hsink, hname⟩ := hmac mac hget
    rw [meets_bind]
    refine (h.meets_statusOf hs hids.1 hstage.1 _ _).mono fun status t ht => ?_
    generalize hr : TransmissionRecord.mk net.asn slot channel m mac.name status = r
    have hsuccess : r.success = (status == .success) := by rw [← hr]; rfl
    have hsender : r.sender = m := by rw [← hr]
    -- the observers and the devices behind `m`, once its sink knows the outcome
    have hafter : ∀ {u}, Inv net.asn (update stage m (.told channel r.success)) u →
        Meets lenient (net.observers.trigger (.text r.label) (env.observe · r)) u fun _ v =>
          Meets lenient (confirm env net slot all rest) v fun _ w => ∃ stage',
            ((∀ i ∈ m :: rest.map (·.1), stage' i = .over) ∧
              Elsewhere (m :: rest.map (·.1)) stage stage') ∧ Inv net.asn stage' w := by
      intro u hu
      have hrecord := h.record (r := r) (.text r.label) hu (hsender ▸ hids.1) (by rw [← hr])
        (by rw [← hr]; exact hslot) (by rw [← hr]; exact hname)
        (by rw [hsender, update_self, ← hr])
      rw [hsender, update_idem] at hrecord
      refine hrecord.mono fun _ v hv => ?_
      have hstage' : ∀ e ∈ rest, update stage m .over e.1 = .sent e.2 := by
        intro e he
        rw [update_of_ne (ne_of_mem_of_not_mem (List.mem_map_of_mem he) hnodup.1)]
        exact hstage.2 e he
      refine (ih hids.2 hnodup.2 hstage' hv).mono ?_
      rintro _ w ⟨stage', ⟨hall, helse⟩, hw⟩
      exact ⟨stage', ⟨List.forall_mem_cons.2 ⟨helse.eq_of_update hnodup.1, hall⟩, helse.cons⟩, hw⟩
    simp only [hsink]
    cases hk : sinks m with
    | none =>
      simp only [meets_bind]
      exact hafter (h.unheard _ ht hids.1 hstage.1 hk)
    | some k =>
      simp only [meets_bind]
      refine (h.outcome _ ht hids.1 hstage.1 hslot hk).mono fun _ u hu => ?_
      exact hafter hu

theorem meets_deliverOverheard (h : Staged lenient env net sinks names last Inv)
    (hs : Inv asn stage s) (hslot : slotAt net.slots asn = .ok slot) {senders ids : List μ}
    (hids : ids ⊆ net.macs) (hstage : ∀ m ∈ ids, m ∉ senders → stage m = .silent) :
    Meets lenient (deliverOverheard env slot senders ids) s fun _ => Inv asn stage := by
  induction ids generalizing s with
  | nil => exact hs
  | cons m rest ih =>
    rw [List.cons_subset] at hids
    rw [List.forall_mem_cons] at hstage
    obtain ⟨hmissing, hmac⟩ := h.device hs hids.1
    unfold deliverOverheard
    rw [meets_bind]
    refine Shelf.meets_read _ (fun mac hget => ?_) hmissing
    rw [(hmac mac hget).1]
    cases hsink : sinks m with
    | none => exact ih hs hids.2 hstage.2
    | some k =>
      by_cases hm : m ∈ senders
      · simp only [if_neg (not_not_intro hm)]
        exact ih hs hids.2 hstage.2
      · simp only [if_pos hm, meets_bind]
        refine (h.overheard hs hids.1 (hstage.1 hm) hslot hsink).mono fun _ t ht => ?_
        exact ih ht hids.2 hstage.2

/-! ### Slots -/

theorem meets_runSlot (h : Staged lenient env net sinks names last Inv)
    (hs : Inv net.asn (fun _ => .resting) s) (hlast : net.asn < last) :
    Meets lenient (runSlot env net) s fun next t =>
      next = { net with asn := net.asn + 1 } ∧ Inv (net.asn + 1) (fun _ => .resting) t := by
  unfold runSlot
  rw [meets_bind]
  refine meets_ofExcept_of (h.slots net.asn) fun slot hslot => ?_
  rw [meets_bind]
  refine (h.meets_announce hs (List.Subset.refl _) h.nodup fun _ _ => rfl).mono ?_
  rintro _ t ⟨stage, ⟨hstage, -⟩, ht⟩
  have hbegin := h.meets_begin ht hlast hstage
  rw [meets_bind] at hbegin ⊢
  refine hbegin.mono fun ks t' ht' => ?_
  rw [meets_bind]
  refine ht'.mono ?_
  rintro _ u ⟨stage, hstage, hu⟩
  rw [meets_bind]
  refine (h.meets_transmitters hu hslot (List.Subset.refl _) h.nodup hstage).mono ?_
  rintro all v ⟨stage, ⟨⟨hsub, hnodup, hsent, hsilent⟩, -⟩, hv⟩
  rw [meets_bind]
  refine (h.meets_confirm hv rfl hslot all hsub hnodup hsent).mono ?_
  rintro _ w ⟨stage', ⟨hover, helse⟩, hw⟩
  have hrest : ∀ m ∈ net.macs, m ∉ all.map (·.1) → stage' m = .silent := fun m hm hni =>
    (helse m hni).trans (hsilent m hm hni)
  have hdone : ∀ m ∈ net.macs, stage' m = .silent ∨ stage' m = .over := fun m hm =>
    (Decidable.em (m ∈ all.map (·.1))).elim (fun hi => .inr (hover m hi))
      fun hni => .inl (hrest m hm hni)
  cases all with
  | nil => exact ⟨rfl, h.passed hw hdone⟩
  | cons e rest =>
    simp only [List.isEmpty_cons, Bool.not_false, if_true, meets_bind]
    refine (h.meets_deliverOverheard hw hslot (List.Subset.refl _) hrest).mono fun _ x hx => ?_
    exact ⟨rfl, h.passed hx hdone⟩

theorem meets_runSlots (n : Nat) (h : Staged lenient env net sinks names last Inv)
    (hs : Inv net.asn (fun _ => .resting) s) (hlast : net.asn + n ≤ last) :
    Meets lenient (runSlots env n) (net, s) fun _ p =>
      p.1 = { net with asn := net.asn + n } ∧ Inv (net.asn + n) (fun _ => .resting) p.2 := by
  induction n generalizing net s with
  | zero => exact ⟨rfl, hs⟩
  | succ n ih =>
    unfold runSlots advance
    simp only [meets_bind, meets_part, meets_outside, meets_change]
    refine (h.meets_runSlot hs (by omega)).mono ?_
    rintro _ t ⟨rfl, ht⟩
    have hnext : Staged lenient env { net with asn := net.asn + 1 } sinks names last Inv :=
      { h with }
    have hrest := ih hnext ht (by show net.asn + 1 + n ≤ last; omega)
    rwa [show net.asn + 1 + n = net.asn + (n + 1) by omega] at hrest

end Staged
end Network
end TschLearning
