import TschLearning.Proofs.Learning.Tapered
import TschLearning.Proofs.Scenario.Populated
import TschLearning.Proofs.Scheduler.Accord
import TschLearning.Proofs.Scheduler.Peaking

/-! What a slot scheduler makes of its past in exact arithmetic. The slot numbers that it accepted
tell its exploration rate, and together with the activity that it overheard its scores, whatever
else has happened. -/

namespace TschLearning

open TschLearning.Action TschLearning.Happening

namespace SlotSelection

variable {σ μ : Type} [Journal σ]

/-- What the happenings so far tell of a scheduler. -/
structure Aware (params : Parameters ℚ) (slots : Nat) (channel : Int)
    (events : List (Happening σ)) (a : SlotSelection μ ℚ) : Prop where
  params_eq : a.params = params
  slots_eq : a.table.slots = slots
  offset : a.channelOffset = .int channel
  asn_eq : a.asn = (accepted events).getLast?
  epsilon_eq : ∀ asn, a.asn = some asn → a.epsilon = params.schedule.exactly asn
  peaking_eq : a.peaking = ⟨(List.range slots).map (peak params.sigma slots events)⟩

variable {params : Parameters ℚ} {slots : Nat} {channel : Int} {past : List (Happening σ)}
  {a : SlotSelection μ ℚ} {made : List LinkDeployment} {needs : Needs μ σ ℚ}

omit [Journal σ] in
/-- A happening that is no accepted slot number leaves all but the scores as it was. -/
theorem Aware.between (h : Aware params slots channel past a) {event : Happening σ}
    (haccepted : accepted (past ++ [event]) = accepted past) {b : SlotSelection μ ℚ}
    (hparams : b.params = a.params) (hslots : b.table.slots = a.table.slots)
    (hoffset : b.channelOffset = a.channelOffset) (hasn : b.asn = a.asn)
    (hepsilon : b.epsilon = a.epsilon)
    (hpeaking : b.peaking = ⟨(List.range slots).map fun s =>
      peak params.sigma slots past s + if event.isHeardIn s then 1 else 0⟩) :
    Aware params slots channel (past ++ [event]) b where
  params_eq := hparams.trans h.params_eq
  slots_eq := hslots.trans h.slots_eq
  offset := hoffset.trans h.offset
  asn_eq := by rw [haccepted, hasn, h.asn_eq]
  epsilon_eq asn hb := by rw [hepsilon, h.epsilon_eq asn (hasn ▸ hb)]
  peaking_eq := by
    have hstarts : starts slots (past ++ [event]) = starts slots past := by
      unfold starts
      rw [haccepted]
    rw [hpeaking]
    exact congrArg PeakingTable.mk (List.map_congr_left fun s _ =>
      (peak_between params.sigma hstarts s).symm)

omit [Journal σ] in
/-- A happening that is neither an accepted slot number nor overheard activity leaves the scores as
well. -/
theorem Aware.aside (h : Aware params slots channel past a) {event : Happening σ}
    (haccepted : accepted (past ++ [event]) = accepted past)
    (hheard : ∀ slot, event.isHeardIn slot = false) {b : SlotSelection μ ℚ}
    (hparams : b.params = a.params) (hslots : b.table.slots = a.table.slots)
    (hoffset : b.channelOffset = a.channelOffset) (hasn : b.asn = a.asn)
    (hepsilon : b.epsilon = a.epsilon) (hpeaking : b.peaking = a.peaking) :
    Aware params slots channel (past ++ [event]) b := by
  refine h.between haccepted hparams hslots hoffset hasn hepsilon ?_
  rw [hpeaking, h.peaking_eq]
  refine congrArg PeakingTable.mk (List.map_congr_left fun s _ => ?_)
  rw [hheard s, if_neg Bool.false_ne_true, add_zero]

/-- What an accepted slot number comes to: nothing fails that is not a request, and a slotframe
starts with a deployment, in the quietest slot if the number that is drawn says so. -/
structure Reached (needs : Needs μ σ ℚ) (slots : Nat) (channel : Int) (made : List LinkDeployment)
    (s : σ) (asn : Nat) (outcome : Except Fault Unit) (a : SlotSelection μ ℚ)
    (made' : List LinkDeployment) : Prop where
  asn_eq : a.asn = some asn
  ok : needs.Obliging → outcome = .ok ()
  moves : asn % slots = 0 → ∃ slot : Nat, ∃ answer,
    made' = made ++ [⟨⟨[((slot : Int), channel)]⟩, answer⟩] ∧
    ∀ next, needs.Foretells next → a.mayExplore = true → next s < a.epsilon →
      slot = a.peaking.quietest

theorem Aware.settles_boundary (h : Aware params slots channel past a) (hparams : params.Tapers)
    (hneeds : needs.Willing) {asn : Nat}
    (hlater : Signal.later? (accepted past).getLast? (.int asn) = some asn) (s : σ) :
    Settles (happenWriting needs (.called (.boundary (.int asn)))) (a, made, s) fun outcome p =>
      Aware params slots channel (past ++ [.called (.boundary (.int asn))]) p.1 ∧
        Reached needs slots channel made s asn outcome p.1 p.2.1 := by
  have hlast : ∀ last, a.asn = some last → last < asn := by
    rw [h.asn_eq]
    exact (Signal.later?_eq_some hlater).2
  have haccepted :
      accepted (past ++ [.called (.boundary (.int asn))]) = accepted past ++ [asn] := by
    rw [accepted_boundary, hlater, Option.toList_some]
  have hasn : some asn = (accepted (past ++ [.called (.boundary (.int asn))])).getLast? := by
    rw [haccepted, List.getLast?_concat]
  have hrate : a.annealed asn = .ok (params.schedule.exactly asn) := by
    rw [← h.params_eq]
    exact annealed_eq_exactly (h.params_eq ▸ hparams) asn
  refine (hneeds.settles_onSlotBoundaryBy h.offset hlast hrate s).mono ?_
  rw [h.slots_eq]
  rintro outcome ⟨_, _, t⟩ hp
  by_cases hstart : asn % slots = 0
  · rw [if_pos hstart] at hp
    obtain ⟨deployer, action, attempts, requested, slot, answer, rfl, rfl, hok, -, hquietest⟩ := hp
    refine ⟨{
      params_eq := h.params_eq
      slots_eq := h.slots_eq
      offset := h.offset
      asn_eq := hasn
      epsilon_eq := ?_
      peaking_eq := ?_ }, rfl, hok, fun _ => ⟨slot, answer, rfl, fun next hnext hmay hlt => ?_⟩⟩
    · rintro _ ⟨⟩
      rfl
    · show a.peaking.decay a.params.sigma = _
      rw [h.peaking_eq, h.params_eq, PeakingTable.decay_range]
      exact congrArg PeakingTable.mk (List.map_congr_left fun s _ =>
        (peak_start params.sigma hlater hstart s).symm)
    · exact hquietest next hnext hmay (decide_eq_true hlt)
  · rw [if_neg hstart] at hp
    obtain ⟨hok, rfl, rfl⟩ := hp
    have hstarts : starts slots (past ++ [.called (.boundary (.int asn))]) = starts slots past := by
      unfold starts
      rw [haccepted, List.countP_append, List.countP_singleton, if_neg (by simpa using hstart)]
      rfl
    refine ⟨{
      params_eq := h.params_eq
      slots_eq := h.slots_eq
      offset := h.offset
      asn_eq := hasn
      epsilon_eq := ?_
      peaking_eq := ?_ }, rfl, fun _ => hok, fun hnot => absurd hnot hstart⟩
    · rintro _ ⟨⟩
      rfl
    · rw [h.peaking_eq]
      refine congrArg PeakingTable.mk (List.map_congr_left fun s _ => ?_)
      rw [peak_between params.sigma hstarts]
      exact (add_zero _).symm

theorem Aware.settles_happen (h : Aware params slots channel past a) (hparams : params.Tapers)
    (hneeds : needs.Willing) (event : Happening σ) (s : σ) :
    Settles (happenWriting needs event) (a, made, s) fun _ p =>
      Aware params slots channel (past ++ [event]) p.1 := by
  cases event with
  | called call =>
    cases call with
    | boundary x =>
      cases hx : Signal.later? (accepted past).getLast? x with
      | none =>
        have haccepted : accepted (past ++ [.called (.boundary x)]) = accepted past := by
          rw [accepted_boundary, hx, Option.toList_none, List.append_nil]
        rw [← h.asn_eq] at hx
        refine (settles_of_eq_error (onSlotBoundaryBy_of_later?_eq_none _ _ hx _)).2 ?_
        exact h.aside haccepted (fun _ => rfl) rfl rfl rfl rfl rfl rfl
      | some asn =>
        obtain ⟨rfl, -⟩ := Signal.later?_eq_some hx
        exact (h.settles_boundary hparams hneeds hx s).mono fun _ _ hp => hp.1
    | outcome slot channel success =>
      have haccepted := accepted_concat past (.called (.outcome slot channel success))
      refine (hneeds.settles_onTransmissionOutcome slot success s).mono ?_
      rintro _ ⟨_, _, t⟩ ⟨table, successes, delay, requested, hslots, rfl, rfl⟩
      exact h.aside haccepted (fun _ => rfl) rfl hslots rfl rfl rfl rfl
  | overheard slot =>
    have haccepted := accepted_concat past (.overheard slot)
    refine (settles_onOverheardActivity slot (made, s)).mono ?_
    rintro _ _ rfl
    refine h.between haccepted rfl rfl rfl rfl rfl ?_
    show a.peaking.raised slot = _
    rw [h.peaking_eq, PeakingTable.raised_range]
    rfl
  | elsewhere change =>
    exact h.aside (accepted_concat past (.elsewhere change)) (fun _ => rfl) rfl rfl rfl rfl rfl rfl

omit [Journal σ] in
/-- A scheduler that has just been made, whichever slot it drew. -/
theorem aware_fresh (params : Parameters ℚ) (node : Datum) (slots : Nat) (mac : μ)
    (destination : Datum) (channel : Int) (voice : Voice) (first : Int) :
    Aware (σ := σ) params slots channel []
      { fresh params node slots mac destination (.int channel) voice with action := first } where
  params_eq := rfl
  slots_eq := rfl
  offset := rfl
  asn_eq := rfl
  epsilon_eq _ h := by cases h
  peaking_eq := by
    refine congrArg PeakingTable.mk (List.ext_getElem (by simp) fun s _ _ => ?_)
    simp only [List.getElem_replicate, List.getElem_map]
    exact (peak_eq_zero params.sigma (List.forall_mem_nil _)).symm

/-- Any number of happenings, and then an accepted slot number. -/
theorem exists_aware (hparams : params.Tapers) {node : Datum} {mac : μ} {destination : Datum}
    {voice : Voice}
    (ha : create params node (.int slots) mac destination (.int channel) voice = .ok a)
    (hneeds : needs.Willing) (first : Int) (events : List (Happening σ)) (s : σ) :
    0 < slots ∧ ∃ outcomes a' made t,
      attemptEach (happenWriting needs) events ({ a with action := first }, [], s)
        = .ok outcomes (a', made, t) ∧
      attemptEach (happen needs) events ({ a with action := first }, s) = .ok outcomes (a', t) ∧
      Aware params slots channel events a' ∧
      ∀ asn : Nat, (∀ last, a'.asn = some last → last < asn) →
        ∃ outcome a'' made' t',
          attempt (happenWriting needs (.called (.boundary (.int asn)))) (a', made, t)
            = .ok outcome (a'', made', t') ∧
          attempt (happen needs (.called (.boundary (.int asn)))) (a', t) = .ok outcome (a'', t') ∧
          Aware params slots channel (events ++ [.called (.boundary (.int asn))]) a'' ∧
          Reached needs slots channel made t asn outcome a'' made' := by
  obtain ⟨hfits, rfl⟩ := create_eq_ok ha
  obtain ⟨outcomes, a', made, t, hwriting, hplain, haware⟩ := attemptEach_happen_eq_ok
    (I := fun events p => Aware params slots channel events p.1)
    (fun past event (_ : event ∈ events) p hp => hp.settles_happen hparams hneeds event p.2.2)
    (aware_fresh params node slots mac destination channel voice first)
  refine ⟨hfits.slots_pos, outcomes, a', made, t, hwriting, hplain, haware, fun asn hlater => ?_⟩
  have hsome : Signal.later? (accepted events).getLast? (.int asn) = some asn := by
    rw [← haware.asn_eq]
    exact Signal.later?_int_eq_some hlater
  obtain ⟨outcome, a'', made', t', hrun, hrun', haware', hreached⟩ :=
    attempt_happen_eq_ok (haware.settles_boundary hparams hneeds hsome t)
  exact ⟨outcome, a'', made', t', hrun, hrun', haware', hreached⟩

omit [Journal σ] in
theorem Aware.epsilon_bounds (h : Aware params slots channel past a) (hparams : params.Tapers)
    {asn : Nat} (hasn : a.asn = some asn) :
    0 ≤ a.epsilon ∧ a.epsilon ≤ params.epsilonCap ∧
      (a.epsilon = params.epsilonCap ↔
        asn = 0 ∨ asn * params.epsilonCap ≤ params.epsilonScale) := by
  rw [h.epsilon_eq asn hasn]
  exact ⟨EpsilonSchedule.exactly_nonneg hparams.scale (Arith.isProbability_iff.1 hparams.cap).1 asn,
    params.schedule.exactly_le_cap asn, EpsilonSchedule.exactly_eq_cap_iff asn⟩

/-- Whatever has happened to a slot scheduler, no accepted slot number fails, unless a request does.
The exploration rate is within zero and the cap from the first of them on, it is the cap exactly as
long as the scale allows for that, and it does not rise from one to the next. -/
theorem rate_anneals (hparams : params.Tapers) {node : Datum} {mac : μ} {destination : Datum}
    {voice : Voice}
    (ha : create params node (.int slots) mac destination (.int channel) voice = .ok a)
    (hneeds : needs.Willing) (hobliging : needs.Obliging) (first : Int)
    (events : List (Happening σ)) (s : σ) :
    ∃ outcomes a' t,
      attemptEach (happen needs) events ({ a with action := first }, s) = .ok outcomes (a', t) ∧
      a'.asn = (accepted events).getLast? ∧
      (∀ asn, a'.asn = some asn → 0 ≤ a'.epsilon ∧ a'.epsilon ≤ params.epsilonCap ∧
        (a'.epsilon = params.epsilonCap ↔
          asn = 0 ∨ asn * params.epsilonCap ≤ params.epsilonScale)) ∧
      ∀ asn : Nat, (∀ last, a'.asn = some last → last < asn) →
        ∃ b t', onSlotBoundary needs (.int asn) (a', t) = .ok () (b, t') ∧ b.asn = some asn ∧
          0 ≤ b.epsilon ∧ b.epsilon ≤ params.epsilonCap ∧
          (b.epsilon = params.epsilonCap ↔
            asn = 0 ∨ asn * params.epsilonCap ≤ params.epsilonScale) ∧
          ∀ last, a'.asn = some last → b.epsilon ≤ a'.epsilon := by
  obtain ⟨-, outcomes, a', made, t, -, hrun, haware, hnext⟩ :=
    exists_aware hparams ha hneeds first events s
  refine ⟨outcomes, a', t, hrun, haware.asn_eq, fun asn => haware.epsilon_bounds hparams,
    fun asn hlater => ?_⟩
  obtain ⟨outcome, b, made', t', -, hstep, hb, hreached⟩ := hnext asn hlater
  obtain rfl := hreached.ok hobliging
  obtain ⟨hnonneg, hle, hcap⟩ := hb.epsilon_bounds hparams hreached.asn_eq
  refine ⟨b, t', eq_ok_of_attempt_eq_ok hstep, hreached.asn_eq, hnonneg, hle, hcap,
    fun last hlast => ?_⟩
  rw [hb.epsilon_eq asn hreached.asn_eq, haware.epsilon_eq last hlast]
  exact EpsilonSchedule.exactly_anti hparams.scale (hlater last hlast).le

/-- MAC layers that answer every edit as they are told to, and take every request. -/
def compliant : MacAccess Nat Whims := { Whims.access with request := fun _ _ _ => pure () }

def least {σ : Type} : Draws σ ℚ where
  uniform := pure 0
  below _ := pure 0

def newcomer : SlotSelection Nat ℚ :=
  fresh (.level (1 / 2) 0) (.int 1) 2 0 (.int 0) (.int 0) .ofModule

/-- Activity in a slot and in none, a slot number that comes twice and an outcome. -/
def murmurs : List (Happening Whims) :=
  [.called (.boundary (.int 0)), .overheard (.int 0), .overheard (.int 2),
    .called (.boundary (.int 0)), .called (.outcome (.int 0) (.int 0) true),
    .called (.boundary (.int 3))]

theorem willing_compliant : Needs.Willing ⟨compliant, least⟩ where
  macs := { ChannelHopping.responsive_whims with }
  uniform_ends _ := trivial

theorem create_newcomer :
    create (.level (1 / 2) 0) (.int 1) (.int (2 : Nat)) 0 (.int 0) (.int 0) .ofModule
      = .ok newcomer :=
  create_of_fits ⟨by decide, by decide, by decide⟩ _ _ _ _ _ _

theorem tapers_level : Parameters.Tapers (.level (1 / 2) 0) :=
  ⟨by decide +kernel, by decide +kernel⟩

/-- The first deployment is refused. -/
theorem rate_anneals_murmurs :
    ∃ outcomes a t b t',
      attemptEach (happen ⟨compliant, least⟩) murmurs
        ({ newcomer with action := 1 }, Whims.start [true]) = .ok outcomes (a, t) ∧
      a.asn = some 3 ∧ a.epsilon < 1 / 2 ∧
      onSlotBoundary ⟨compliant, least⟩ (.int 4) (a, t) = .ok () (b, t') ∧
      b.epsilon ≤ a.epsilon := by
  have hobliging : Needs.Obliging ⟨compliant, least⟩ := fun _ _ _ _ => trivial
  obtain ⟨outcomes, a, t, hrun, hasn, hrange, hnext⟩ := rate_anneals tapers_level create_newcomer
    willing_compliant hobliging 1 murmurs (Whims.start [true])
  have hthree : a.asn = some 3 := hasn.trans (by decide +kernel)
  obtain ⟨b, t', hstep, -, -, -, -, hle⟩ := hnext 4 fun last hlast => by
    rw [hthree] at hlast
    cases hlast
    decide
  obtain ⟨-, hcap, hiff⟩ := hrange 3 hthree
  refine ⟨outcomes, a, t, b, t', hrun, hthree, lt_of_le_of_ne hcap fun heq => ?_, hstep,
    hle 3 hthree⟩
  exact absurd (hiff.1 heq) (by decide +kernel)

/-- The scores of a slot scheduler are sums over the activity that it has overheard: one for every
time, decayed once for every slotframe that an accepted slot number has started since. A slot number
that is not accepted changes nothing, and no more does activity in a slot that is none. A choice
that explores takes the first of the slots with the lowest score once the slotframe has started, and
with a decay that leaves something none that activity was overheard in, as long as there is
another. -/
theorem scores_sum_overheard (hparams : params.Tapers) {node : Datum} {mac : μ}
    {destination : Datum} {voice : Voice}
    (ha : create params node (.int slots) mac destination (.int channel) voice = .ok a)
    (hneeds : needs.Willing) (first : Int) (events : List (Happening σ)) (s : σ) :
    ∃ outcomes a' made t,
      attemptEach (happenWriting needs) events ({ a with action := first }, [], s)
        = .ok outcomes (a', made, t) ∧
      attemptEach (happen needs) events ({ a with action := first }, s) = .ok outcomes (a', t) ∧
      a'.peaking.scores = (List.range slots).map (peak params.sigma slots events) ∧
      (∀ x, Signal.later? (accepted events).getLast? x = none →
        ∃ f, happen needs (.called (.boundary x)) (a', t) = .error f (a', t)) ∧
      (∀ x : Datum, (∀ slot < slots, x.isSlot slot = false) →
        ∃ f, happen needs (.overheard x) (a', t) = .error f (a', t)) ∧
      ∀ asn : Nat, (∀ last ∈ (accepted events).getLast?, last < asn) → asn % slots = 0 →
        ∃ outcome b t', ∃ slot : Nat, ∃ answer,
          attempt (happenWriting needs (.called (.boundary (.int asn)))) (a', made, t)
            = .ok outcome (b, made ++ [⟨⟨[((slot : Int), channel)]⟩, answer⟩], t') ∧
          attempt (happen needs (.called (.boundary (.int asn)))) (a', t) = .ok outcome (b, t') ∧
          b.peaking.scores = (List.range slots).map
            (peak params.sigma slots (events ++ [.called (.boundary (.int asn))])) ∧
          ∀ next, needs.Foretells next → b.mayExplore = true → next t < b.epsilon →
            IsLeast (lowest slots
              (peak params.sigma slots (events ++ [.called (.boundary (.int asn))]))) slot ∧
            (0 < params.sigma →
              (∃ quiet < slots, ∀ event ∈ events, event.isHeardIn quiet = false) →
              ∀ event ∈ events, event.isHeardIn slot = false) := by
  obtain ⟨hpos, outcomes, a', made, t, hwriting, hrun, haware, hnext⟩ :=
    exists_aware hparams ha hneeds first events s
  refine ⟨outcomes, a', made, t, hwriting, hrun, congrArg PeakingTable.scores haware.peaking_eq,
    fun x hx => ?_, fun x hx => ?_, fun asn hlater hstart => ?_⟩
  · rw [← haware.asn_eq] at hx
    exact ⟨_, onSlotBoundaryBy_of_later?_eq_none (LinkDeployer.deploy needs.macs) needs hx t⟩
  · exact onOverheardActivity_of_forall_isSlot (by rw [haware.peaking_eq]; simpa using hx) t
  · rw [← haware.asn_eq] at hlater
    obtain ⟨outcome, b, made', t', hstep, hstep', hb, hreached⟩ := hnext asn hlater
    obtain ⟨slot, answer, rfl, hquietest⟩ := hreached.moves hstart
    refine ⟨outcome, b, t', slot, answer, hstep, hstep',
      congrArg PeakingTable.scores hb.peaking_eq, fun next hforetells hmay hlt => ?_⟩
    have hleast := PeakingTable.isLeast_quietest (n := slots)
      (f := peak params.sigma slots (events ++ [.called (.boundary (.int asn))])) hpos
    rw [← hb.peaking_eq, ← hquietest next hforetells hmay hlt] at hleast
    refine ⟨hleast, fun hsigma ⟨quiet, hquiet, hnever⟩ event hmem => ?_⟩
    refine isHeardIn_eq_false_of_lowest hsigma hleast.1 hquiet ?_ event
      (List.mem_append_left _ hmem)
    intro event hmem
    rcases List.mem_append.1 hmem with hmem | hmem
    · exact hnever event hmem
    · rw [List.mem_singleton.1 hmem]
      rfl

/-- Nothing was ever overheard in the second slot. -/
theorem scores_sum_overheard_murmurs :
    ∃ outcomes a made t outcome b t' answer,
      attemptEach (happenWriting ⟨compliant, least⟩) murmurs
        ({ newcomer with action := 1 }, [], Whims.start [true]) = .ok outcomes (a, made, t) ∧
      a.peaking.scores = [1, 0] ∧
      attempt (happenWriting ⟨compliant, least⟩ (.called (.boundary (.int 4)))) (a, made, t)
        = .ok outcome (b, made ++ [⟨⟨[(1, 0)]⟩, answer⟩], t') ∧
      b.peaking.scores = [1 / 2, 0] := by
  obtain ⟨outcomes, a, made, t, hrun, -, hscores, -, -, hnext⟩ := scores_sum_overheard tapers_level
    create_newcomer willing_compliant 1 murmurs (Whims.start [true])
  obtain ⟨outcome, b, t', slot, answer, hstep, -, hscores', hchoice⟩ :=
    hnext 4 (by decide +kernel) (by decide)
  have hforetells : Needs.Foretells ⟨compliant, least⟩ fun _ => 0 :=
    ⟨fun _ => rfl, fun _ _ => rfl⟩
  -- the gate is open and the rate above zero, so that the choice explores
  have hexplores : (match attemptEach (happenWriting ⟨compliant, least⟩) murmurs
      ({ newcomer with action := 1 }, [], Whims.start [true]) with
    | .ok _ p =>
      match attempt (happenWriting ⟨compliant, least⟩ (.called (.boundary (.int (4 : Nat))))) p with
      | .ok _ q => q.1.mayExplore && decide (0 < q.1.epsilon)
      | .error _ _ => false
    | .error _ _ => false) = true := by decide +kernel
  rw [hrun] at hexplores
  dsimp only at hexplores
  rw [hstep, Bool.and_eq_true, decide_eq_true_iff] at hexplores
  obtain ⟨hleast, hnever⟩ := hchoice _ hforetells hexplores.1 hexplores.2
  have hzero := hnever (by decide +kernel) ⟨1, by decide, by decide +kernel⟩ (.overheard (.int 0))
    (by simp [murmurs])
  obtain rfl : slot = 1 := by
    have hlt : slot < 2 := hleast.1.1
    have hne : slot ≠ 0 := fun h => by
      rw [h] at hzero
      cases hzero
    omega
  exact ⟨outcomes, a, made, t, outcome, b, t', answer, hrun, hscores.trans (by decide +kernel),
    hstep, hscores'.trans (by decide +kernel)⟩

end SlotSelection
end TschLearning
