import TschLearning.Proofs.Deployer.Frame
import TschLearning.Proofs.Network.Audit
import TschLearning.Proofs.Scheduler.Counts
import TschLearning.Testbed.Networks

/-! The accounts of a testbed: what its channel schedulers have counted, and what some statistics
have. Deployments, draws and messages leave them alone. -/

namespace TschLearning.Testbed

open TschLearning.Action

/-! ### Shelves -/

section Shelf

variable {τ : Type} {get : World → Array τ} {put : Array τ → World → World}
  (hput : ∀ row w, get (put row w) = row)

include hput

theorem shelf_get?_put_self {i : Nat} {old : τ} {t : Testbed}
    (hold : (shelf get put).get? i t = some old) (new : τ) :
    (shelf get put).get? i ((shelf get put).put i new t) = some new := by
  obtain ⟨hi, -⟩ := Array.getElem?_eq_some_iff.1 hold
  show (get (put ((get t.world).setIfInBounds i new) t.world))[i]? = some new
  rw [hput, Array.getElem?_setIfInBounds_self_of_lt hi]

theorem shelf_get?_put_of_ne {i j : Nat} (hij : i ≠ j) (new : τ) (t : Testbed) :
    (shelf get put).get? j ((shelf get put).put i new t) = (shelf get put).get? j t := by
  show (get (put ((get t.world).setIfInBounds i new) t.world))[j]? = (get t.world)[j]?
  rw [hput, Array.getElem?_setIfInBounds_ne hij]

end Shelf

/-! ### Accounts -/

def counted (t : Testbed) : SinkRef → Option (Nat × Nat)
  | .hopping k => (hoppings.get? k t).map fun u => u.scheduler.counts
  | _ => none

/-- What the channel schedulers and the statistics of a handle have counted. -/
def accounts (book : Nat) (t : Testbed) : Option (Accounts SinkRef) :=
  (statistics.get? book t).map fun s => { counts := counted t, book := s }

variable {book rng : Nat} {ids : List Nat} {ks : List SinkRef} {a : Accounts SinkRef}
  {t u : Testbed}

theorem accounts_eq_some :
    accounts book t = some a ↔ counted t = a.counts ∧ statistics.get? book t = some a.book := by
  unfold accounts
  rw [Option.map_eq_some_iff]
  constructor
  · rintro ⟨s, hs, rfl⟩
    exact ⟨rfl, hs⟩
  · rintro ⟨hcounts, hs⟩
    exact ⟨a.book, hs, by rw [hcounts]⟩

/-- The accounts are `a`, and every device has one of the sinks `ks`. -/
abbrev Accounted (book : Nat) (ids : List Nat) (ks : List SinkRef) (a : Accounts SinkRef) :
    Testbed → Prop :=
  macs.Accounted (accounts book) ids ks a

namespace Accounted

theorem counted_eq (h : Accounted book ids ks a t) : counted t = a.counts :=
  (accounts_eq_some.1 h.accounts_eq).1

theorem statistics_eq (h : Accounted book ids ks a t) : statistics.get? book t = some a.book :=
  (accounts_eq_some.1 h.accounts_eq).2

theorem congr (h : Accounted book ids ks a t) (hh : u.world.hoppings = t.world.hoppings)
    (hs : u.world.statistics = t.world.statistics) (hm : u.world.macs = t.world.macs) :
    Accounted book ids ks a u where
  accounts_eq := by
    have hhoppings : ∀ k, hoppings.get? k u = hoppings.get? k t := fun k => by
      show u.world.hoppings[k]? = t.world.hoppings[k]?
      rw [hh]
    have hcounted : counted u = counted t := by
      funext k
      cases k <;> simp only [counted, hhoppings]
    refine accounts_eq_some.2 ⟨hcounted.trans h.counted_eq, Eq.trans ?_ h.statistics_eq⟩
    show u.world.statistics[book]? = t.world.statistics[book]?
    rw [hs]
  attached i hi m hmac := by
    refine h.attached i hi m (Eq.trans ?_ hmac)
    show t.world.macs[i]? = u.world.macs[i]?
    rw [hm]

theorem enter (n : Note) (h : Accounted book ids ks a t) :
    Accounted book ids ks a (Journal.enter n t) :=
  h.congr rfl rfl rfl

theorem put_mac (h : Accounted book ids ks a t) {i : Nat} {m m' : Mac SinkRef}
    (hm : macs.get? i t = some m) (hsink : m'.sink = m.sink) :
    Accounted book ids ks a (macs.put i m' t) where
  accounts_eq := h.accounts_eq
  attached j hj mac hmac := by
    by_cases hij : i = j
    · subst hij
      rw [macs, shelf_get?_put_self (fun _ _ => rfl) hm] at hmac
      rw [← Option.some.inj hmac, hsink]
      exact h.attached i hj m hm
    · rw [macs, shelf_get?_put_of_ne (fun _ _ => rfl) hij] at hmac
      exact h.attached j hj mac hmac

end Accounted

theorem keeps_macs_update {β : Type} {f : Mac SinkRef → Except Fault (β × Mac SinkRef)}
    (hf : ∀ m b m', f m = .ok (b, m') → m'.sink = m.sink) (i : Nat) :
    Keeps (Accounted book ids ks a) (fun _ => True) (macs.update i f) :=
  macs.keeps_update fun m b m' _ hs hm hok => hs.put_mac hm (hf m b m' hok)

theorem keeps_record (seen : List Snapshot) :
    Keeps (Accounted book ids ks a) (fun _ => True) (record seen) :=
  fun _ hs => ⟨trivial, hs.congr rfl rfl rfl⟩

theorem keeps_uniform (handle : Nat) :
    Keeps (Accounted book ids ks a) (fun _ => True) (drawsFrom handle).uniform := by
  unfold drawsFrom
  dsimp only
  exact rngs.keeps_alone fun _ _ hs => Accounted.congr hs rfl rfl rfl

theorem keeps_below (handle n : Nat) :
    Keeps (Accounted book ids ks a) (fun _ => True) ((drawsFrom handle).below n) := by
  unfold drawsFrom
  dsimp only
  exact rngs.keeps_alone fun _ _ hs => Accounted.congr hs rfl rfl rfl

/-! ### Deployments -/

theorem keeps_callStandIn (handle : Nat) (call : MacCall) (arguments : List Datum) :
    Keeps (Accounted book ids ks a) (fun _ => True) (callStandIn handle call arguments) := by
  unfold callStandIn
  refine (standIns.keeps_read handle).bind fun f _ => ?_
  refine (keeps_record _).bind fun _ _ => ?_
  refine (standIns.keeps_update fun _ _ _ _ hs _ _ => hs.congr rfl rfl rfl).bind fun refusal _ => ?_
  have hrest : Keeps (Accounted book ids ks a) (fun _ => True)
      (if call = .request ∧ !f.takesRequests then throw Fault.requestsUnsupported
        else pure () : Action Testbed Unit) := by
    split
    · exact keeps_throw _
    · exact keeps_pure trivial
  cases refusal with
  | none => exact hrest
  | some fault => exact (keeps_throw (R := fun _ => False) _).bind fun _ hno => hno.elim

theorem keeps_deploy (handle : Nat) (configuration : Configuration) :
    Keeps (Accounted book ids ks a) (fun _ => True) (deploy handle configuration) := by
  have hnote : ∀ (n : Note) t, Accounted book ids ks a t →
      Accounted book ids ks a (Journal.enter n t) := fun n _ hs => hs.enter n
  have hedit : ∀ m e, Keeps (Accounted book ids ks a) (fun _ => True)
      (LinkDeployer.edit macAccess m e) := by
    intro m e
    cases m with
    | simulated i label =>
      have hsimulated := LinkDeployer.keeps_edit (i := i) macs (fun _ => "") hnote
        (fun mac l _ hs hmac => hs.put_mac hmac (show (mac.withLinks l).sink = mac.sink from rfl)) e
      cases e <;> exact hsimulated
    | standIn i label => cases e <;> exact keeps_callStandIn i _ _
  have hcheck : ∀ m channels, Keeps (Accounted book ids ks a) (fun _ => True)
      (macAccess.checkSequence m channels) := by
    intro m channels
    cases m with
    | simulated i label =>
      refine keeps_macs_update (fun mac _ mac' hok => ?_) i
      obtain ⟨_, -, hok⟩ := bind_eq_ok.1 hok
      cases hok
      rfl
    | standIn i label => exact keeps_callStandIn i _ _
  have hset : ∀ m channels, Keeps (Accounted book ids ks a) (fun _ => True)
      (macAccess.setSequence m channels) := by
    intro m channels
    cases m with
    | simulated i label =>
      refine keeps_macs_update (fun mac _ mac' hok => ?_) i
      obtain ⟨updated, hupdated, hok⟩ := bind_eq_ok.1 hok
      cases hok
      obtain ⟨_, -, hupdated⟩ := bind_eq_ok.1 hupdated
      cases hupdated
      rfl
    | standIn i label => exact keeps_callStandIn i _ _
  have hdeploy := Deployer.keeps_deploy hnote hedit hcheck hset configuration
  exact deployers.keeps_run (T := fun _ => True) (fun _ _ _ _ => trivial)
    (fun _ _ _ hs => hs.congr rfl rfl rfl) (hdeploy.congr fun _ => (and_iff_right trivial).symm)

/-! ### Schedulers -/

/-- What has been counted once a scheduler is in another state. -/
theorem counted_put {j : Nat} {v w : HoppingUnit} (hv : hoppings.get? j t = some v) (k : SinkRef) :
    counted (hoppings.put j w t) k
      = if k = .hopping j then some w.scheduler.counts else counted t k := by
  cases k with
  | hopping k =>
    simp only [SinkRef.hopping.injEq]
    by_cases hjk : j = k
    · subst hjk
      rw [if_pos rfl, counted, hoppings, shelf_get?_put_self (fun _ _ => rfl) hv]
      rfl
    · rw [if_neg (Ne.symm hjk), counted, counted, hoppings,
        shelf_get?_put_of_ne (fun _ _ => rfl) hjk]
  | selection k => rfl
  | recording serial name overhears => rfl

theorem Accounted.put_hopping (h : Accounted book ids ks a t) {j : Nat} {w : HoppingUnit}
    (hw : a.counts (.hopping j) = some w.scheduler.counts) :
    Accounted book ids ks a (hoppings.put j w t) where
  accounts_eq := by
    rw [← h.counted_eq] at hw
    obtain ⟨v, hv, -⟩ := Option.map_eq_some_iff.1 hw
    refine accounts_eq_some.2 ⟨Eq.trans ?_ h.counted_eq, h.statistics_eq⟩
    funext k
    rw [counted_put hv]
    split
    · rename_i hk
      rw [hk, hw]
    · rfl
  attached := h.attached

theorem keep_hoppingNeeds (v : HoppingUnit) :
    (hoppingNeeds v).Keep (Accounted book ids ks a) where
  deploy items := keeps_deploy v.deployer (.channels items)
  uniform := keeps_uniform v.rng
  below := keeps_below v.rng
  note n _ hs := hs.enter n

theorem keeps_boundary (j : Nat) (asn : Datum) :
    Keeps (Accounted book ids ks a) (fun _ => True) (deliverBoundary (.hopping j) asn) := by
  unfold deliverBoundary inHopping
  refine (hoppings.keeps_read j).bind fun v _ => ?_
  cases hn : a.counts (.hopping j) with
  | none =>
    -- the scheduler does not exist
    refine hoppings.keeps_run (T := fun _ => False) ?_ (fun _ _ hno => hno.elim)
      fun _ hno => hno.1.elim
    intro w t ht hw
    rw [← ht.counted_eq] at hn
    rw [Option.map_eq_none_iff.1 hn] at hw
    cases hw
  | some n =>
    refine hoppings.keeps_run (T := fun w : HoppingUnit => w.scheduler.counts = n) ?_ ?_ ?_
    · intro w t ht hw
      rw [← ht.counted_eq] at hn
      have hcounts : (hoppings.get? j t).map (fun u => u.scheduler.counts) = some n := hn
      rw [hw] at hcounts
      exact Option.some.inj hcounts
    · exact fun w t hw ht => ht.put_hopping (hn.trans (congrArg some hw.symm))
    · exact Keeps.within_of (K := fun c : ChannelHopping Float => c.counts = n)
        (P := Accounted book ids ks a) (fun _ hw => hw) (fun _ _ hc _ => hc)
        (ChannelHopping.keeps_onSlotBoundary (keep_hoppingNeeds v) asn)

theorem meets_outcome (j : Nat) (slot : Datum) (channel : Int) (success : Bool)
    (ht : Accounted book ids ks a t) :
    Meets True (deliverOutcome (.hopping j) slot (.int channel) (.bool success)) t fun _ u =>
      ∃ b, Accounts.Told (.hopping j) success a b ∧ Accounted book ids ks b u := by
  unfold deliverOutcome inHopping
  rw [meets_bind]
  refine hoppings.meets_read (fun v hv => ?_) fun _ => trivial
  refine hoppings.meets_run (fun w hw => ?_) fun _ => trivial
  rw [meets_within]
  refine (ChannelHopping.meets_recordOutcome (P := Accounted book ids ks a)
    (fun n s hs => hs.enter n) ht slot (.int channel) success).mono ?_
  rintro _ ⟨c, u⟩ ⟨hcounts, hu⟩
  have hn : counted t (.hopping j) = some w.scheduler.counts := by
    show (hoppings.get? j t).map _ = _
    rw [hw]
    rfl
  rw [ht.counted_eq] at hn
  obtain ⟨w', hw', -⟩ := Option.map_eq_some_iff.1 ((congrFun hu.counted_eq _).trans hn)
  have hput : ∀ k, counted (hoppings.put j { w with scheduler := c } u) k
      = if k = .hopping j then some c.counts else counted u k := counted_put hw'
  refine ⟨{ a with counts := counted (hoppings.put j { w with scheduler := c } u) },
    ⟨⟨w.scheduler.counts, hn, ?_⟩, fun k hk => ?_, rfl⟩, ?_, hu.attached⟩
  · refine (hput _).trans ((if_pos rfl).trans (congrArg some (hcounts.trans ?_)))
    cases success <;> rfl
  · exact (hput k).trans ((if_neg hk).trans (congrFun hu.counted_eq k))
  · exact accounts_eq_some.2 ⟨rfl, hu.statistics_eq⟩

/-! ### Networks -/

theorem Accounted.put_statistics (h : Accounted book ids ks a t) (new : Statistics) :
    Accounted book ids ks { a with book := new } (statistics.put book new t) where
  accounts_eq := accounts_eq_some.2
    ⟨h.counted_eq, shelf_get?_put_self (fun _ _ => rfl) h.statistics_eq new⟩
  attached := h.attached

theorem Accounted.put_other_statistics (h : Accounted book ids ks a t) {i : Nat} (hi : i ≠ book)
    (new : Statistics) : Accounted book ids ks a (statistics.put i new t) where
  accounts_eq := accounts_eq_some.2
    ⟨h.counted_eq, (shelf_get?_put_of_ne (fun _ _ => rfl) hi new t).trans h.statistics_eq⟩
  attached := h.attached

/-- A network whose devices are attached to channel schedulers. -/
theorem audited (book rng : Nat) (ids schedulers : List Nat) :
    (surroundings rng).Audited (accounts book) ids (schedulers.map .hopping)
      (.statistics book) where
  update {β f} hf i a := by
    refine keeps_macs_update (fun m b m' hok => ?_) i
    obtain ⟨g, hg⟩ := hf
    have hm : m' = (f m).2 := (congrArg Prod.snd (Except.ok.inj hok)).symm
    rw [hm, hg]
  uniform a := keeps_uniform rng
  note a n s hs := Accounted.enter n hs
  boundary a k hk asn := by
    obtain ⟨j, -, rfl⟩ := List.mem_map.1 hk
    exact keeps_boundary j (.int asn)
  overheard a k hk slot := by
    obtain ⟨j, -, rfl⟩ := List.mem_map.1 hk
    exact keeps_pure trivial
  outcome a k hk slot channel success s hs := by
    obtain ⟨j, -, rfl⟩ := List.mem_map.1 hk
    exact meets_outcome j slot channel success hs
  record a r s hs := by
    refine statistics.meets_update (fun old _ new hold hadd => ?_) (fun _ => trivial)
      fun _ _ _ _ => trivial
    obtain ⟨added, hadded, hadd⟩ := bind_eq_ok.1 hadd
    cases hadd
    obtain ⟨device, rfl⟩ := Statistics.add_eq_ok hadded
    rw [Option.some.inj (hold.symm.trans (Accounted.statistics_eq hs))]
    exact ⟨device, Accounted.put_statistics hs _⟩
  aside a o ho r := by
    cases o with
    | statistics i =>
      have hne : i ≠ book := fun h => ho (congrArg ObserverRef.statistics h)
      exact statistics.keeps_update fun _ _ _ _ hs _ _ =>
        Accounted.put_other_statistics hs hne _
    | recorder serial name => exact keeps_record _

end TschLearning.Testbed
