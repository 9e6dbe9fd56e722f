import TschLearning.Proofs.Network.Coupled
import TschLearning.Proofs.Network.Traced
import TschLearning.Proofs.Scenario.Standing
import TschLearning.Proofs.Scheduler.Lessons

/-! What the trace of a network says about its one scheduler. Every outcome in it is on the channel
that was configured for its slot, and every closing that learns rewards the slots with a success
in the slotframe before. -/

namespace TschLearning

namespace Ledger

/-- The configuration accepted last, after another deployment. -/
def accepting (accepted : Option (List Datum)) (d : Deployment) : Option (List Datum) :=
  if d.answer then some d.configuration else accepted

/-- Deployments change the accepted configuration and nothing else. -/
theorem foldl_deployed (threshold : Nat) (l : Ledger) (ds : List Deployment) :
    ((ds.map Occurrence.deployed).foldl (after threshold) l).accepted
        = ds.foldl accepting l.accepted ∧
      ((ds.map Occurrence.deployed).foldl (after threshold) l).won = l.won := by
  induction ds generalizing l with
  | nil => exact ⟨rfl, rfl⟩
  | cons d ds ih => exact ih (l.after threshold (.deployed d))

/-- What a slot boundary does to a ledger. -/
theorem foldl_boundary (threshold slots asn : Nat) (l : Ledger) (made : List Deployment) :
    ((ChannelHopping.occurrences slots made (.boundary asn)).foldl (after threshold) l).accepted
        = made.foldl accepting l.accepted ∧
      ((ChannelHopping.occurrences slots made (.boundary asn)).foldl (after threshold) l).won
        = if ChannelHopping.Closes slots asn then [] else l.won := by
  simp only [ChannelHopping.occurrences]
  split
  · have hmade : made.dropLast ++ made.getLast?.toList = made := by
      rcases List.eq_nil_or_concat made with rfl | ⟨ds, d, rfl⟩
      · rfl
      · rw [List.concat_eq_append, List.dropLast_concat, List.getLast?_concat]
        rfl
    obtain ⟨ha, -⟩ := foldl_deployed threshold l made.dropLast
    rw [List.foldl_append, List.foldl_cons]
    obtain ⟨ha', hw'⟩ := foldl_deployed threshold
      (((made.dropLast.map Occurrence.deployed).foldl (after threshold) l).after threshold .closed)
      made.getLast?.toList
    refine ⟨?_, hw'⟩
    rw [ha']
    show made.getLast?.toList.foldl accepting
      ((made.dropLast.map Occurrence.deployed).foldl (after threshold) l).accepted = _
    rw [ha, ← List.foldl_append, hmade]
  · exact foldl_deployed threshold l made

end Ledger

/-- The slot that a boundary was delivered for last. -/
def Phase.reached (ph : Phase) : Option Nat :=
  if ph.begun then some ph.asn else
    match ph.asn with
    | 0 => none
    | asn + 1 => some asn

namespace Pan

open ChannelHopping

variable {ρ α : Type}

/-- A delivery in a network with one scheduler. -/
abbrev Event (ρ α : Type) := Delivered Nat Unit Unit (Pan ρ α)

namespace Event

/-- The delivery was made in a slot. -/
def At (e : Event ρ α) (asn : Nat) : Prop := e.before.scheduler.asn = some asn

def IsOutcome (e : Event ρ α) : Prop :=
  ∃ slot channel success, e.delivery = .outcome () slot channel success

/-- A transmission in a slot and on a channel had success. -/
def Wins (e : Event ρ α) (slot channel : Nat) : Prop :=
  e.delivery = .outcome () (.int slot) channel true

/-- An outcome is about the slot that it was delivered in, and on the channel configured then. -/
structure Planned (slots : Nat) (e : Event ρ α) (asn : Nat) : Prop where
  at_asn : e.At asn
  outcome : ∃ channel : Nat, ∃ success,
    e.delivery = .outcome () (.int (asn % slots : Nat)) channel success ∧
      channelAt? e.before.scheduler.configuration (asn % slots) = some (channel : Int)

end Event

/-- Some transmission in a slot of a slotframe had success. -/
def Succeeded (slots : Nat) (trace : List (Event ρ α)) (frame slot : Nat) : Prop :=
  ∃ e ∈ trace, ∃ asn channel, e.At asn ∧ asn / slots = frame ∧ e.Wins slot channel

/-- Some transmission in a slot and on a channel had success since the slotframe of the slot
reached last began. -/
def WonNow (slots : Nat) (reached : Option Nat) (trace : List (Event ρ α)) (slot channel : Nat) :
    Prop :=
  ∃ e ∈ trace, ∃ a b, e.At a ∧ reached = some b ∧ a / slots = b / slots ∧ e.Wins slot channel

theorem wonNow_concat {slots : Nat} {reached : Option Nat} {trace : List (Event ρ α)}
    {e : Event ρ α} {slot channel : Nat} :
    WonNow slots reached (trace ++ [e]) slot channel ↔
      WonNow slots reached [e] slot channel ∨ WonNow slots reached trace slot channel := by
  unfold WonNow
  simp only [List.mem_append, List.mem_singleton, or_and_right, exists_or, exists_eq_left]
  exact Or.comm

theorem Event.not_isOutcome_of_boundary {e : Event ρ α} {asn : Nat}
    (h : e.delivery = .boundary () asn) : ¬e.IsOutcome := by
  rintro ⟨_, _, _, ho⟩
  rw [h] at ho
  cases ho

theorem Event.Wins.isOutcome {e : Event ρ α} {slot channel : Nat} (h : e.Wins slot channel) :
    e.IsOutcome :=
  ⟨_, _, _, h⟩

/-- The success of a transmission in the slot reached. -/
theorem Event.At.wonNow_singleton {e : Event ρ α} {asn : Nat} (hat : e.At asn) {slots slot : Nat}
    {channel : Nat} {success : Bool}
    (h : e.delivery = .outcome () (.int slot) channel success) {t ch : Nat} :
    WonNow slots (some asn) [e] t ch ↔ success = true ∧ t = slot ∧ ch = channel := by
  constructor
  · rintro ⟨e', he', _, _, -, -, -, hwins⟩
    rw [List.mem_singleton.1 he', Event.Wins, h] at hwins
    simp only [Delivery.outcome.injEq, Datum.int.injEq, Int.natCast_inj] at hwins
    exact ⟨hwins.2.2.2, hwins.2.1.symm, hwins.2.2.1.symm⟩
  · rintro ⟨rfl, rfl, rfl⟩
    exact ⟨e, List.mem_singleton_self e, asn, asn, hat, rfl, rfl, h⟩

theorem mem_of_isOutcome {trace : List (Event ρ α)} {e e' : Event ρ α} (hquiet : ¬e.IsOutcome)
    (he : e' ∈ trace ++ [e]) (ho : e'.IsOutcome) : e' ∈ trace := by
  rcases List.mem_append.1 he with he | he
  · exact he
  · rw [List.mem_singleton.1 he] at ho
    exact absurd ho hquiet

theorem wonNow_concat_of_not_isOutcome {slots : Nat} {reached : Option Nat}
    {trace : List (Event ρ α)} {e : Event ρ α} (hquiet : ¬e.IsOutcome) {slot channel : Nat} :
    WonNow slots reached (trace ++ [e]) slot channel ↔ WonNow slots reached trace slot channel := by
  rw [wonNow_concat, or_iff_right]
  rintro ⟨e', he', _, _, -, -, -, hwins⟩
  rw [List.mem_singleton.1 he'] at hwins
  exact hquiet hwins.isOutcome

variable [Arith α]

/-- If the delivery closes a slotframe and the scheduler learns from it, then every slot is
rewarded for a success in that slotframe or a failure. -/
def Event.Rewards (params : Parameters α) (slots : Nat) (earlier : List (Event ρ α))
    (e : Event ρ α) : Prop :=
  ∀ asn, e.delivery = .boundary () asn → Closes slots asn →
    e.before.scheduler.active = true → e.before.scheduler.deployed = true →
    ∃ won : Nat → Bool,
      (∀ t < slots, won t = true ↔ Succeeded slots earlier (asn / slots - 1) t) ∧
      e.after.scheduler.table = Lookahead.snapshot params (fun t _ => won t)
        e.before.scheduler.configuration e.before.scheduler.table

/-- What holds of a trace and of the scheduler `c` at its end, which is to be in the slot of the
phase if there are devices; `x` is the configuration accepted last. -/
structure Chronicle (params : Parameters α) (slots channels : Nat) (ids : List Nat) (ph : Phase)
    (x : Option (List Int)) (trace : List (Event ρ α)) (c : ChannelHopping α) : Prop where
  asn_eq : ids ≠ [] → c.asn = ph.reached
  ledger : ∃ l, Follows params slots channels l c ∧ l.accepted = x.map Datum.ofInts ∧
    ∀ t ch, (t, ch) ∈ l.won ↔ WonNow slots c.asn trace t ch
  -- the configuration does not change within a slotframe
  outcomes : ∀ e ∈ trace, e.IsOutcome → x.isSome = true ∧
    ∃ a b, e.Planned slots a ∧ c.asn = some b ∧ a ≤ b ∧
      (a / slots = b / slots → e.before.scheduler.configuration = c.configuration)
  rewards : ∀ earlier e, earlier ++ [e] <+: trace → e.Rewards params slots earlier

variable {params : Parameters α} {slots channels : Nat} {ids : List Nat} {ph : Phase}
  {x : Option (List Int)} {trace : List (Event ρ α)} {c : ChannelHopping α} {e : Event ρ α}

theorem rewards_concat
    (h : ∀ earlier e, earlier ++ [e] <+: trace → e.Rewards params slots earlier)
    (he : e.Rewards params slots trace) {earlier : List (Event ρ α)} {e' : Event ρ α}
    (hpre : earlier ++ [e'] <+: trace ++ [e]) : e'.Rewards params slots earlier := by
  rcases List.prefix_concat_iff.1 hpre with heq | hpre
  · obtain ⟨rfl, rfl⟩ := List.append_singleton_inj.1 heq
    exact he
  · exact h earlier e' hpre

theorem chronicle_start {name : Datum} {voice : Voice} (hfits : Fits slots channels)
    {cs : List Int} (hcs : InRange slots channels cs) (plan : Nat → Option Nat) :
    Chronicle (ρ := ρ) params slots channels ids ⟨plan, 0, false⟩ none []
      ((fresh params name voice slots channels).startingWith cs) where
  asn_eq _ := rfl
  ledger := by
    refine ⟨.empty, follows_fresh hfits hcs.1 hcs.2, rfl, fun t ch => ?_⟩
    simp [Ledger.empty, WonNow]
  outcomes e he := absurd he List.not_mem_nil
  rewards earlier e hpre := by
    have hnil := List.prefix_nil.1 hpre
    simp at hnil

theorem Chronicle.quiet (h : Chronicle params slots channels ids ph x trace c)
    (hout : ¬e.IsOutcome) (hbound : ∀ asn, e.delivery ≠ .boundary () asn) :
    Chronicle params slots channels ids ph x (trace ++ [e]) c where
  asn_eq := h.asn_eq
  ledger := by
    obtain ⟨l, hl, hacc, hwon⟩ := h.ledger
    refine ⟨l, hl, hacc, fun t ch => ?_⟩
    rw [hwon, wonNow_concat_of_not_isOutcome hout]
  outcomes e' he' ho := h.outcomes e' (mem_of_isOutcome hout he' ho) ho
  rewards _ _ hpre := rewards_concat h.rewards (fun asn he => absurd he (hbound asn)) hpre

theorem Chronicle.passed {plan : Nat → Option Nat} {asn : Nat} {begun : Bool}
    (h : Chronicle params slots channels ids ⟨plan, asn, begun⟩ x trace c)
    (hpass : begun = true ∨ ids = []) :
    Chronicle params slots channels ids ⟨plan, asn + 1, false⟩ x trace c where
  asn_eq hne := by
    have hbegun := hpass.resolve_right hne
    subst hbegun
    exact h.asn_eq hne
  ledger := h.ledger
  outcomes := h.outcomes
  rewards := h.rewards

/-! ### Outcomes -/

omit [Arith α] in
theorem configuration_informed (c : ChannelHopping α) (slot channel : Nat) (success : Bool) :
    (c.informed slot channel success).configuration = c.configuration := by
  unfold ChannelHopping.informed
  split <;> rfl

/-- The scheduler has the configuration that was accepted last. -/
theorem Chronicle.configuration_eq (h : Chronicle params slots channels ids ph x trace c)
    {cs : List Int} (hx : x = some cs) : c.configuration = Datum.ofInts cs := by
  obtain ⟨l, hl, hacc, -⟩ := h.ledger
  rw [hx] at hacc
  exact hl.configuration_eq _ hacc

theorem Chronicle.deployed_eq (h : Chronicle params slots channels ids ph x trace c) :
    c.deployed = x.isSome := by
  obtain ⟨l, hl, hacc, -⟩ := h.ledger
  rw [hl.deployed_eq, hacc, Option.isSome_map]

theorem Chronicle.valid (h : Chronicle params slots channels ids ph x trace c) :
    c.Valid slots channels := by
  obtain ⟨l, hl, -⟩ := h.ledger
  exact hl.valid

theorem Chronicle.informed (h : Chronicle params slots channels ids ph x trace c) {asn : Nat}
    (hasn : c.asn = some asn) {cs : List Int} (hx : x = some cs) {channel : Nat} {success : Bool}
    (hslots : 0 < slots) (hchannel : channel < channels)
    (hplan : cs[asn % slots]? = some (channel : Int))
    (hdelivery : e.delivery = .outcome () (.int (asn % slots : Nat)) channel success)
    (hbefore : e.before.scheduler = c) :
    Chronicle params slots channels ids ph x (trace ++ [e])
      (c.informed (asn % slots) channel success) where
  asn_eq hne := (asn_informed ..).trans (h.asn_eq hne)
  ledger := by
    obtain ⟨l, hl, hacc, hwon⟩ := h.ledger
    refine ⟨_, hl.informed (Nat.mod_lt asn hslots) hchannel success, hacc, fun t ch => ?_⟩
    have hat : e.At asn := by rw [Event.At, hbefore, hasn]
    rw [asn_informed, wonNow_concat, ← hwon, hasn, hat.wonNow_singleton hdelivery]
    cases success <;> simp [Ledger.after]
  outcomes e' he' ho := by
    rw [asn_informed, configuration_informed]
    rcases List.mem_append.1 he' with he' | he'
    · exact h.outcomes e' he' ho
    · rw [List.mem_singleton.1 he']
      have hplanned : e.Planned slots asn := {
        at_asn := by rw [Event.At, hbefore, hasn]
        outcome := by
          refine ⟨channel, success, hdelivery, ?_⟩
          rw [hbefore, h.configuration_eq hx, channelAt?_ofInts, hplan] }
      exact ⟨by rw [hx]; rfl, asn, asn, hplanned, hasn, Nat.le_refl asn, fun _ => by rw [hbefore]⟩
  rewards _ _ hpre := by
    refine rewards_concat h.rewards (fun asn he => ?_) hpre
    rw [hdelivery] at he
    cases he

/-! ### Boundaries -/

variable {plan : Nat → Option Nat} {asn : Nat}

omit [Arith α] in
theorem Event.At.unique {a b : Nat} (ha : e.At a) (hb : e.At b) : a = b :=
  Option.some.inj (ha.symm.trans hb)

theorem isSome_foldl_accepting {accepted : Option (List Datum)} (h : accepted.isSome = true)
    (ds : List Deployment) : (ds.foldl Ledger.accepting accepted).isSome = true := by
  induction ds generalizing accepted with
  | nil => exact h
  | cons d ds ih =>
    refine ih ?_
    unfold Ledger.accepting
    split
    · rfl
    · exact h

/-- The next slot is in the same slotframe unless it closes that. -/
theorem frame_succ (slots b : Nat) :
    (b + 1) / slots = if Closes slots (b + 1) then b / slots + 1 else b / slots := by
  have hcloses : Closes slots (b + 1) ↔ slots ∣ b + 1 :=
    ⟨fun h => Nat.dvd_of_mod_eq_zero h.2, fun h => ⟨b.succ_pos, Nat.mod_eq_zero_of_dvd h⟩⟩
  rw [Nat.succ_div]
  simp only [hcloses]
  split <;> rfl

/-- All successes of the slotframe at hand are on configured channels. -/
theorem Chronicle.wonNow_iff (h : Chronicle params slots channels ids ph x trace c) {b : Nat}
    (hb : c.asn = some b) {t ch : Nat} (hch : channelAt? c.configuration t = some (ch : Int)) :
    WonNow slots c.asn trace t ch ↔ Succeeded slots trace (b / slots) t := by
  constructor
  · rintro ⟨e, he, a, b', ha, hb', hframe, hwins⟩
    rw [hb] at hb'
    cases hb'
    exact ⟨e, he, a, ch, ha, hframe, hwins⟩
  · rintro ⟨e, he, a, ch', ha, hframe, hwins⟩
    obtain ⟨-, a', b', hplanned, hb', -, hsame⟩ := h.outcomes e he hwins.isOutcome
    rw [hb] at hb'
    cases hb'
    have haa := ha.unique hplanned.at_asn
    subst haa
    obtain ⟨channel, success, hdelivery, hconfigured⟩ := hplanned.outcome
    rw [Event.Wins, hdelivery] at hwins
    simp only [Delivery.outcome.injEq, Datum.int.injEq, Int.natCast_inj] at hwins
    obtain ⟨-, rfl, rfl, rfl⟩ := hwins
    rw [hsame hframe, hch] at hconfigured
    have hcc : ch = channel := Int.ofNat.inj (Option.some.inj hconfigured)
    subst hcc
    exact ⟨e, he, a, b, ha, hb, hframe, hdelivery⟩

omit [Arith α] in
theorem table_answered (c : ChannelHopping α) (d : Deployment) :
    (c.answered d).table = c.table := by
  unfold answered
  split <;> rfl

theorem table_closed (c : ChannelHopping α) (d : Deployment) :
    (c.closed d).table = c.taught.table := by
  show (c.ticked.taught.forgetful.answered d).table = _
  rw [table_answered]
  exact table_taught_ticked c

theorem table_reached (hactive : c.active = true) (hdeployed : c.deployed = true) (asn : Nat)
    (d : Deployment) :
    (c.reached asn [] [d]).table
      = Lookahead.snapshot c.params c.outcomes.cell c.configuration c.table := by
  have hlearns : (c.active && c.deployed) = true := by
    rw [hactive, hdeployed]
    rfl
  show (closed { c with asn := some asn } d).table = _
  rw [table_closed, taught]
  exact congrArg ChannelHopping.table (if_pos hlearns)

/-- The slots that a boundary comes after. -/
theorem Chronicle.asn_succ
    (h : Chronicle params slots channels ids ⟨plan, asn, false⟩ x trace c) (hne : ids ≠ [])
    {b : Nat} (hb : c.asn = some b) : asn = b + 1 := by
  have hasn := h.asn_eq hne
  rw [hb] at hasn
  cases asn with
  | zero => cases hasn
  | succ n =>
    cases hasn
    rfl

theorem Chronicle.frame_eq
    (h : Chronicle params slots channels ids ⟨plan, asn, false⟩ x trace c) (hne : ids ≠ [])
    {b : Nat} (hb : c.asn = some b) (hcloses : ¬Closes slots asn) : asn / slots = b / slots := by
  have hsucc := h.asn_succ hne hb
  subst hsucc
  rw [frame_succ, if_neg hcloses]

theorem Chronicle.frame_ne
    (h : Chronicle params slots channels ids ⟨plan, asn, false⟩ x trace c) (hne : ids ≠ [])
    {a b : Nat} (hb : c.asn = some b) (hle : a ≤ b) (hcloses : Closes slots asn) :
    a / slots ≠ asn / slots := by
  have hdiv : a / slots ≤ b / slots := Nat.div_le_div_right hle
  have hsucc := h.asn_succ hne hb
  subst hsucc
  rw [frame_succ, if_pos hcloses]
  omega

/-- At a closing the successes so far become those of an earlier slotframe. -/
theorem Chronicle.wonNow_next
    (h : Chronicle params slots channels ids ⟨plan, asn, false⟩ x trace c) (hne : ids ≠ [])
    {t ch : Nat} :
    WonNow slots (some asn) trace t ch ↔ ¬Closes slots asn ∧ WonNow slots c.asn trace t ch := by
  constructor
  · rintro ⟨e, he, a, _, ha, hnow, hframe, hwins⟩
    cases hnow
    obtain ⟨-, a', b, hplanned, hb, hle, -⟩ := h.outcomes e he hwins.isOutcome
    have haa := ha.unique hplanned.at_asn
    subst haa
    have hcloses : ¬Closes slots asn := fun hc => h.frame_ne hne hb hle hc hframe
    exact ⟨hcloses, e, he, a, b, ha, hb, hframe.trans (h.frame_eq hne hb hcloses), hwins⟩
  · rintro ⟨hcloses, e, he, a, b, ha, hb, hframe, hwins⟩
    exact ⟨e, he, a, asn, ha, rfl, hframe.trans (h.frame_eq hne hb hcloses).symm, hwins⟩

/-- A closing that learns. -/
theorem Chronicle.rewards_boundary
    (h : Chronicle params slots channels ids ⟨plan, asn, false⟩ x trace c) (hne : ids ≠ [])
    {first policy : List Deployment} (hd : Handed slots channels c asn first policy)
    (hdelivery : e.delivery = .boundary () asn) (hbefore : e.before.scheduler = c)
    (hafter : e.after.scheduler = c.reached asn first policy) :
    e.Rewards params slots trace := by
  classical
  intro asn' hasn' hcloses hactive hdeployed
  rw [hdelivery] at hasn'
  cases hasn'
  rw [hbefore] at hactive hdeployed
  obtain ⟨b, hb⟩ : ∃ b, c.asn = some b := by
    have hasn := h.asn_eq hne
    cases asn with
    | zero => exact absurd hcloses.1 (Nat.lt_irrefl 0)
    | succ n => exact ⟨n, hasn⟩
  have hsucc := h.asn_succ hne hb
  subst hsucc
  obtain rfl := hd.first_eq_nil hb
  have hpolicy := hd.policy_eq
  rw [if_pos hcloses] at hpolicy
  obtain ⟨d, rfl, -⟩ := hpolicy
  obtain ⟨l, hl, -, hwon⟩ := h.ledger
  refine ⟨fun t => decide (Succeeded slots trace ((b + 1) / slots - 1) t),
    fun t _ => decide_eq_true_iff, ?_⟩
  rw [hafter, table_reached hactive hdeployed, hl.params_eq, hbefore]
  refine Lookahead.snapshot_congr fun t ht ch hch hconfigured => ?_
  rw [hl.outcomes_eq t (hl.valid.slots_table ▸ ht) ch (hl.valid.channels_table ▸ hch), hactive,
    Bool.true_and]
  refine decide_eq_decide.2 ?_
  rw [hwon, h.wonNow_iff hb hconfigured, frame_succ, if_pos hcloses, Nat.add_sub_cancel]

theorem Chronicle.reached
    (h : Chronicle params slots channels ids ⟨plan, asn, false⟩ x trace c) (hne : ids ≠ [])
    {first policy : List Deployment} (hd : Handed slots channels c asn first policy)
    {x' : Option (List Int)}
    (hx : x'.map Datum.ofInts = (first ++ policy).foldl Ledger.accepting (x.map Datum.ofInts))
    (plan' : Nat → Option Nat) (hdelivery : e.delivery = .boundary () asn)
    (hbefore : e.before.scheduler = c) (hafter : e.after.scheduler = c.reached asn first policy) :
    Chronicle params slots channels ids ⟨plan', asn, true⟩ x' (trace ++ [e])
      (c.reached asn first policy) where
  asn_eq _ := asn_reached ..
  ledger := by
    obtain ⟨l, hl, hacc, hwon⟩ := h.ledger
    obtain ⟨haccepted, hwonNext⟩ :=
      Ledger.foldl_boundary params.deactivationThreshold slots asn l (first ++ policy)
    refine ⟨_, hl.reached hd, by rw [haccepted, hacc, hx], fun t ch => ?_⟩
    rw [asn_reached, hwonNext,
      wonNow_concat_of_not_isOutcome (Event.not_isOutcome_of_boundary hdelivery), h.wonNow_next hne]
    by_cases hcloses : Closes slots asn
    · rw [if_pos hcloses]
      exact iff_of_false List.not_mem_nil fun hn => hn.1 hcloses
    · rw [if_neg hcloses, hwon, and_iff_right hcloses]
  outcomes e' he' ho := by
    have hmem := mem_of_isOutcome (Event.not_isOutcome_of_boundary hdelivery) he' ho
    obtain ⟨hsome, a, b, hplanned, hb, hle, hsame⟩ := h.outcomes e' hmem ho
    refine ⟨?_, a, asn, hplanned, asn_reached .., ?_, fun hframe => ?_⟩
    · have haccepted : (x'.map Datum.ofInts).isSome = true := by
        rw [hx]
        exact isSome_foldl_accepting ((Option.isSome_map ..).trans hsome) _
      rwa [Option.isSome_map] at haccepted
    · rw [h.asn_succ hne hb]
      exact Nat.le_succ_of_le hle
    · -- a boundary within a slotframe deploys nothing
      have hcloses : ¬Closes slots asn := fun hc => h.frame_ne hne hb hle hc hframe
      obtain rfl := hd.first_eq_nil hb
      obtain rfl := hd.policy_eq_nil hcloses
      exact hsame (hframe.trans (h.frame_eq hne hb hcloses))
  rewards _ _ hpre :=
    rewards_concat h.rewards (h.rewards_boundary hne hd hdelivery hbefore hafter) hpre

end Pan
end TschLearning
