import TschLearning.Proofs.Scenario.Populated
import TschLearning.Proofs.Scenario.Prepared
import TschLearning.Proofs.Scheduler.Accord
import TschLearning.Proofs.Scheduler.Moves

/-! Both kinds of schedulers keep the same time. The channel scheduler closes a slotframe and then
advances its gate, the slot scheduler advances its gate and then starts a slotframe; called with the
same slot numbers they stand alike after every call. -/

namespace TschLearning

open TschLearning.Action TschLearning.ChannelHopping

namespace Signal

/-- Slot numbers that can still be divided by. -/
def Divisible : Signal → Prop
  | .boundary (.int i) => i < 2 ^ 1023
  | _ => True

end Signal

namespace SlotSelection

variable {σ μ : Type} [Journal σ]

/-- What the slot numbers accepted tell of a scheduler, beside the deployments so far. -/
structure OnTime (slots threshold : Nat) (taken : List Nat) (made : List LinkDeployment)
    (a : SlotSelection μ Float) : Prop where
  slots_eq : a.table.slots = slots
  anneals : a.params.Anneals
  offset : ∃ channel, a.channelOffset = .int channel
  asn_eq : a.asn = taken.getLast?
  activation_eq : a.activation = .behind threshold (taken.countP (Closes slots ·))
  deployments : made.length = taken.countP (· % slots = 0)

variable {slots threshold : Nat} {taken : List Nat} {made : List LinkDeployment}
  {a : SlotSelection μ Float} {needs : Needs μ σ Float}

/-- An accepted slot number: its slot starts a slotframe or not. -/
theorem OnTime.settles_boundary (h : OnTime slots threshold taken made a) (hneeds : needs.Willing)
    {asn : Nat} (hlater : ∀ last, a.asn = some last → last < asn) {epsilon : Float}
    (hrate : a.annealed asn = .ok epsilon) (s : σ) :
    Settles (onSlotBoundaryBy (writing (LinkDeployer.deploy needs.macs)) needs.outside (.int asn))
      (a, made, s) fun _ p => OnTime slots threshold (taken ++ [asn]) p.2.1 p.1 := by
  have hlast : some asn = (taken ++ [asn]).getLast? := (List.getLast?_concat ..).symm
  have hmarks : (taken ++ [asn]).countP (Closes slots ·)
      = taken.countP (Closes slots ·) + if Closes slots asn then 1 else 0 := by
    rw [List.countP_append]
    by_cases hcloses : Closes slots asn <;> simp [hcloses]
  have hstarts : (taken ++ [asn]).countP (· % slots = 0)
      = taken.countP (· % slots = 0) + if asn % slots = 0 then 1 else 0 := by
    rw [List.countP_append]
    by_cases hstart : asn % slots = 0 <;> simp [hstart]
  obtain ⟨channel, hchannel⟩ := h.offset
  refine (hneeds.settles_onSlotBoundaryBy hchannel hlater hrate s).mono ?_
  rw [h.slots_eq]
  rintro outcome ⟨_, _, t⟩ hp
  by_cases hstart : asn % slots = 0
  · rw [if_pos hstart] at hstarts hp
    obtain ⟨deployer, action, attempts, requested, slot, answer, rfl, rfl, -⟩ := hp
    exact {
      slots_eq := h.slots_eq
      anneals := h.anneals
      offset := h.offset
      asn_eq := hlast
      activation_eq := by
        rw [hmarks]
        show (if 0 < asn then a.activation.advance else a.activation) = _
        by_cases hpos : 0 < asn
        · rw [if_pos hpos, if_pos ⟨hpos, hstart⟩, h.activation_eq, Activation.advance_behind]
        · rw [if_neg hpos, if_neg fun hcloses => hpos hcloses.1, h.activation_eq, Nat.add_zero]
      deployments := by
        rw [List.length_append, h.deployments, hstarts]
        rfl }
  · rw [if_neg hstart] at hstarts hp
    obtain ⟨-, rfl, rfl⟩ := hp
    have hcloses : ¬Closes slots asn := fun hcloses => hstart hcloses.2
    rw [if_neg hcloses] at hmarks
    exact {
      slots_eq := h.slots_eq
      anneals := h.anneals
      offset := h.offset
      asn_eq := hlast
      activation_eq := by rw [hmarks]; exact h.activation_eq
      deployments := by rw [hstarts]; exact h.deployments }

theorem OnTime.settles_hearWriting (h : OnTime slots threshold taken made a)
    (hneeds : needs.Willing) {call : Signal} (hcall : call.Divisible) (s : σ) :
    Settles (hearWriting needs call) (a, made, s) fun _ p =>
      OnTime slots threshold (call.heard taken) p.2.1 p.1 := by
  cases call with
  | boundary x =>
    show Settles (onSlotBoundaryBy (writing (LinkDeployer.deploy needs.macs)) needs.outside x)
      (a, made, s) fun _ p => OnTime slots threshold
        (taken ++ (Signal.later? taken.getLast? x).toList) p.2.1 p.1
    rw [← h.asn_eq]
    cases hx : Signal.later? a.asn x with
    | none =>
      rw [settles_of_eq_error (onSlotBoundaryBy_of_later?_eq_none _ _ hx _)]
      simpa using h
    | some asn =>
      obtain ⟨rfl, hlater⟩ := Signal.later?_eq_some hx
      have hint : (asn : Int) < 2 ^ 1023 := hcall
      have hlt : asn < 2 ^ 1023 := by exact_mod_cast hint
      obtain ⟨epsilon, hepsilon⟩ :=
        annealed_eq_ok h.anneals (hlt.trans_le two_pow_le_integerLimit)
      exact h.settles_boundary hneeds hlater hepsilon s
  | outcome slot channel success =>
    refine (hneeds.settles_onTransmissionOutcome slot success s).mono ?_
    rintro _ ⟨_, _, t⟩ ⟨table, successes, delay, requested, hslots, rfl, rfl⟩
    exact { h with slots_eq := hslots.trans h.slots_eq }

theorem attemptEach_hear_eq_ok (hneeds : needs.Willing) (h : OnTime slots threshold [] [] a)
    {calls : List Signal} (hcalls : ∀ call ∈ calls, call.Divisible) (s : σ) :
    ∃ outcomes a' made t,
      attemptEach (hearWriting needs) calls (a, [], s) = .ok outcomes (a', made, t) ∧
      attemptEach (hear needs) calls (a, s) = .ok outcomes (a', t) ∧
      OnTime slots threshold (Signal.accepted calls) made a' := by
  have hrun : Ends (attemptEach (hearWriting needs) calls) (a, [], s) fun _ p =>
      OnTime slots threshold (Signal.accepted ([] ++ calls)) p.2.1 p.1 := by
    refine ends_attemptEach (I := fun calls (p : SlotSelection μ Float × List LinkDeployment × σ) =>
      OnTime slots threshold (Signal.accepted calls) p.2.1 p.1) ?_ ?_
    · intro past call hcall p hp
      rw [Signal.accepted_concat]
      exact hp.settles_hearWriting hneeds (hcalls call hcall) p.2.2
    · exact h
  obtain ⟨_, ⟨_, _⟩, hplain, outcomes, ⟨a', made, t⟩, hrec, htime, rfl, rfl, rfl⟩ :=
    ends_iff.1 ((Agree.attemptEach (agree_hearWriting needs) calls).ends (s := (a, [], s))
      (t := (a, s)) ⟨rfl, rfl⟩ hrun)
  exact ⟨outcomes, a', made, t, hrec, hplain, htime⟩

end SlotSelection

/-- Called with whatever numbers of slots and outcomes, a channel scheduler and a slot scheduler of
the same slotframe and threshold stand alike after every call. The channel scheduler has closed a
slotframe for every accepted positive multiple of the slotframe, and has made a deployment more than
that once a number was accepted; the slot scheduler has made one for every accepted multiple. The
gates are open exactly if so many slotframes as the threshold says were closed, and count them until
then. A number that is not accepted is refused by both and changes nothing anywhere. -/
theorem schedulers_keep_time {σ τ μ α : Type} [Journal σ] [Journal τ] [Arith α]
    {slots channels : Nat} {params : Parameters α} {name : Datum} {voice : Voice}
    {c : ChannelHopping α} (hc : create params name voice (.int slots) (.int channels) = .ok c)
    {v : ParameterInput} {params' : Parameters Float} (hparams : Parameters.ofInput v = .ok params')
    (hthreshold : params'.deactivationThreshold = params.deactivationThreshold) {node : Datum}
    {mac : μ} {destination : Datum} {channelOffset : Int} {voice' : Voice}
    {a : SlotSelection μ Float}
    (ha : SlotSelection.create params' node (.int slots) mac destination (.int channelOffset) voice'
      = .ok a)
    {needs : Needs σ α} (hneeds : needs.Proper channels)
    {needs' : SlotSelection.Needs μ τ Float} (hneeds' : needs'.Willing) {cs : List Int}
    (hlen : cs.length = slots) (hcs : ∀ i ∈ cs, 0 ≤ i ∧ i < channels) (first : Int)
    {calls : List Signal} (hcalls : ∀ call ∈ calls, call.Divisible) (s : σ) (t : τ) :
    ∃ outcomes c' past s' outcomes' a' made t',
      attemptEach (hear needs) calls (c.startingWith cs, s) = .ok outcomes (c', s') ∧
      attemptEach (hear needs.recording) calls (c.startingWith cs, [], s)
        = .ok outcomes (c', past, s') ∧
      attemptEach (SlotSelection.hear needs') calls ({ a with action := first }, t)
        = .ok outcomes' (a', t') ∧
      attemptEach (SlotSelection.hearWriting needs') calls ({ a with action := first }, [], t)
        = .ok outcomes' (a', made, t') ∧
      c'.asn = (Signal.accepted calls).getLast? ∧ a'.asn = (Signal.accepted calls).getLast? ∧
      c'.epochs = (Signal.accepted calls).countP (Closes slots ·) ∧
      past.length = (if Signal.accepted calls = [] then 0 else c'.epochs + 1) ∧
      (c'.active ↔ params.deactivationThreshold ≤ c'.epochs) ∧
      c'.activation.count = (if c'.active then 0 else c'.epochs) ∧
      a'.activation = c'.activation ∧
      made.length = (Signal.accepted calls).countP (· % slots = 0) ∧
      ∀ x : Datum, (∀ n : Nat, x = .int n → ∃ l ∈ (Signal.accepted calls).getLast?, n ≤ l) →
        onSlotBoundary needs x (c', s')
          = .error (Signal.refusal c'.label (Signal.accepted calls).getLast? x) (c', s') ∧
        SlotSelection.onSlotBoundary needs' x (a', t')
          = .error (Signal.refusal a'.label (Signal.accepted calls).getLast? x) (a', t') := by
  obtain ⟨hfits, rfl⟩ := create_eq_ok hc
  have hfits' : Fits slots 1 := by
    refine ⟨hfits.slots_pos, Nat.one_pos, ?_⟩
    have hle : slots * 1 * 8 ≤ slots * channels * 8 :=
      Nat.mul_le_mul_right 8 (Nat.mul_le_mul_left slots hfits.channels_pos)
    exact hle.trans hfits.area
  rw [SlotSelection.create_of_fits hfits'] at ha
  cases ha
  have hgate : ∀ threshold : Nat, (⟨.int threshold, 0, threshold == 0⟩ : Activation)
      = .behind threshold 0 := fun threshold => (Activation.behind_zero threshold).symm
  have hstart : OnTime slots channels params.deactivationThreshold [] []
      ((fresh params name voice slots channels).startingWith cs) := {
    valid := (follows_fresh hfits hlen hcs).valid
    asn_eq := rfl
    epochs_eq := rfl
    activation_eq := hgate params.deactivationThreshold
    deployments := rfl }
  have hstart' : SlotSelection.OnTime slots params.deactivationThreshold [] []
      { SlotSelection.fresh params' node slots mac destination (.int channelOffset) voice' with
        action := first } := {
    slots_eq := rfl
    anneals := Parameters.anneals_of_ofInput hparams
    offset := ⟨channelOffset, rfl⟩
    asn_eq := rfl
    activation_eq := by
      rw [← hthreshold]
      exact hgate params'.deactivationThreshold
    deployments := rfl }
  obtain ⟨outcomes, c', past, s', hrec, hplain, htime⟩ :=
    ChannelHopping.attemptEach_hear_eq_ok hneeds hstart calls s
  obtain ⟨outcomes', a', made, t', hrec', hplain', htime'⟩ :=
    SlotSelection.attemptEach_hear_eq_ok hneeds' hstart' hcalls t
  have hactive : c'.active = decide (params.deactivationThreshold ≤ c'.epochs) :=
    congrArg Activation.active htime.activation_eq
  refine ⟨outcomes, c', past, s', outcomes', a', made, t', hplain, hrec, hplain', hrec',
    htime.asn_eq, htime'.asn_eq, htime.epochs_eq, htime.deployments, ?_, ?_, ?_,
    htime'.deployments, fun x hx => ?_⟩
  · rw [hactive, decide_eq_true_iff]
  · rw [hactive, htime.activation_eq]
    by_cases hopen : params.deactivationThreshold ≤ c'.epochs <;> simp [Activation.behind, hopen]
  · rw [htime'.activation_eq, htime.activation_eq, htime.epochs_eq]
  · have hnone := Signal.later?_eq_none_iff.2 hx
    constructor
    · rw [← htime.asn_eq] at hnone ⊢
      exact onSlotBoundary_of_later?_eq_none needs hnone s'
    · rw [← htime'.asn_eq] at hnone ⊢
      rw [← SlotSelection.onSlotBoundaryBy_deploy]
      exact SlotSelection.onSlotBoundaryBy_of_later?_eq_none _ needs' hnone t'

/-- Slot numbers with a gap, of which one comes twice and one is none, and an outcome. -/
def skipping : List Signal :=
  [.boundary (.int 0), .boundary (.int 0), .boundary (.text "2"), .outcome (.int 1) (.int 0) true,
    .boundary (.int 2), .boundary (.int 5), .boundary (.int 6)]

/-- Slotframes of two slots. The first deployment of the one scheduler is refused, and the first
edit of the other one. -/
theorem schedulers_keep_time_skipping :
    ∃ (params : Parameters Float) (c : ChannelHopping Float) (past : List Deployment)
        (a : SlotSelection Nat Float) (made : List SlotSelection.LinkDeployment),
      Parameters.ofInput .defaults = .ok params ∧
      (∃ outcomes s, attemptEach (hear Script.answering.recording) skipping
        ((fresh (.level 0.5 params.deactivationThreshold) (.text "PAN") .ofModule 2 3).startingWith
          [0, 2], [], ⟨[false]⟩) = .ok outcomes (c, past, s)) ∧
      (∃ outcomes t, attemptEach (SlotSelection.hearWriting ⟨Whims.access, steady⟩) skipping
        (SlotSelection.fresh params (.int 1) 2 0 (.int 0) (.int 0) .ofModule, [],
          Whims.start [true]) = .ok outcomes (a, made, t)) ∧
      c.epochs = 2 ∧ past.length = 3 ∧ made.length = 3 ∧ a.activation = c.activation := by
  have hok : (Parameters.ofInput .defaults).toBool = true := by decide +kernel
  cases hparams : Parameters.ofInput .defaults with
  | error f =>
    rw [hparams] at hok
    cases hok
  | ok params =>
    have hproper : Script.answering.Proper 3 := {
      deploy_ends := fun _ _ => trivial
      uniform_ends := fun _ => trivial
      below_ends := fun _ => by
        show (0 : Int) ≤ 0 ∧ (0 : Int) < 3
        decide
      obstacle?_eq_none := fun _ _ => rfl }
    have hcalls : ∀ call ∈ skipping, call.Divisible := by
      have hlarge : (6 : Int) < 2 ^ 1023 := by decide +kernel
      simp only [skipping, List.forall_mem_cons, Signal.Divisible]
      refine ⟨?_, ?_, trivial, trivial, ?_, ?_, hlarge, List.forall_mem_nil _⟩
      all_goals exact lt_of_le_of_lt (by decide) hlarge
    have hwilling : SlotSelection.Needs.Willing ⟨Whims.access, steady⟩ :=
      ⟨responsive_whims, fun _ => trivial⟩
    have hwide : ChannelHopping.Fits 2 3 := ⟨by decide, by decide, by decide⟩
    have hnarrow : ChannelHopping.Fits 2 1 := ⟨by decide, by decide, by decide⟩
    have hc := ChannelHopping.create_of_fits hwide
      (Parameters.level (0.5 : Float) params.deactivationThreshold) (.text "PAN") .ofModule
    have ha := SlotSelection.create_of_fits hnarrow params (.int 1) 0 (.int 0) (.int 0) .ofModule
    have hlen : [(0 : Int), 2].length = 2 := rfl
    obtain ⟨_, c, past, s, _, a, made, t, -, hrec, -, hrec', -, -, hepochs, hpast, -, -, hgate,
        hmoves, -⟩ :=
      schedulers_keep_time hc hparams rfl ha hproper hwilling hlen (by decide) 0 hcalls ⟨[false]⟩
        (Whims.start [true])
    have haccepted : Signal.accepted skipping = [0, 2, 5, 6] := by decide +kernel
    rw [haccepted] at hepochs hpast hmoves
    have htwo : c.epochs = 2 := hepochs
    rw [htwo] at hpast
    exact ⟨params, c, past, a, made, rfl, ⟨_, s, hrec⟩, ⟨_, t, hrec'⟩, htwo, hpast, hmoves, hgate⟩

end TschLearning
