import TschLearning.Proofs.Action.Meets
import TschLearning.Proofs.Deployer.Responsive
import TschLearning.Proofs.Deployer.Wilful
import TschLearning.Proofs.Mac.Calls
import TschLearning.Proofs.Scheduler.Alike
import TschLearning.Proofs.Scheduler.Lessons

/-! A channel scheduler with a deployer of its own. Each of them keeps the configuration in force
for itself; whatever is called, refused or fails, they never come to differ. -/

namespace TschLearning

namespace ChannelHopping

open TschLearning.Action

variable {μ σ α : Type}

/-- A deployer of one's own, over MAC layers in the surroundings. -/
def Needs.ofDeployer [Journal σ] (access : MacAccess μ σ) (draws : Draws σ α) :
    Needs (Deployer μ × σ) α where
  deploy configuration := Deployer.deploy access (.channels configuration)
  draws := draws.outside

/-- A call of a scheduler, by its surroundings or by hand. -/
inductive Call where
  | boundary (asn : Datum)
  | outcome (slot channel : Datum) (success : Bool)
  | closing
  | deployment (row : Option (List Int))

section Calls

variable [Journal σ] [Arith α]

def perform (needs : Needs σ α) : Call → Action (ChannelHopping α × σ) Unit
  | .boundary asn => onSlotBoundary needs asn
  | .outcome slot channel success => recordOutcome slot channel success
  | .closing => updateEpoch needs
  | .deployment none => do let _ ← deployPolicy needs
  | .deployment (some cs) => do let _ ← deployConfiguration needs (Datum.ofInts cs)

/-- Calls a scheduler time after time; gives what comes of each call. -/
def performEach (needs : Needs σ α) :
    List Call → Action (ChannelHopping α × σ) (List (Except Fault Unit))
  | [] => pure []
  | call :: rest => do
    let outcome ← attempt (perform needs call)
    return outcome :: (← performEach needs rest)

theorem ends_performEach (needs : Needs σ α) (calls : List Call) (p : ChannelHopping α × σ) :
    Ends (performEach needs calls) p fun _ _ => True := by
  induction calls generalizing p with
  | nil => trivial
  | cons call calls ih =>
    unfold performEach
    simp only [ends_bind, ends_attempt, ends_pure]
    unfold Settles
    split
    · exact ih _
    · exact ih _

variable {τ : Type} [Journal τ] {slots channels : Nat} {Ok : List Int → Prop}
  {Held : List Datum → σ → τ → Prop} {needs : Needs σ α} {needs' : Needs τ α}

theorem agree_performEach (h : Needs.Alike slots channels Ok Held needs needs')
    {calls : List Call} (hok : ∀ cs, .deployment (some cs) ∈ calls → cs.length = slots → Ok cs) :
    Agree (Around (Using (α := α) slots channels Held)) Eq (performEach needs calls)
      (performEach needs' calls) := by
  induction calls with
  | nil => exact agree_pure rfl
  | cons call calls ih =>
    have hcall : Agree (Around (Using (α := α) slots channels Held)) Eq (perform needs call)
        (perform needs' call) := by
      cases call with
      | boundary asn => exact agree_onSlotBoundary h asn
      | outcome slot channel success => exact agree_recordOutcome h slot channel success
      | closing => exact agree_updateEpoch h
      | deployment row =>
        cases row with
        | none => exact (agree_deployPolicy h).bind fun _ _ _ => agree_pure rfl
        | some cs =>
          have hrow := hok cs List.mem_cons_self
          exact (agree_deployConfiguration h hrow).bind fun _ _ _ => agree_pure rfl
    unfold performEach
    apply hcall.attempt.bind
    rintro outcome _ rfl
    apply (ih fun cs hcs => hok cs (List.mem_cons_of_mem _ hcs)).bind
    rintro outcomes _ rfl
    exact agree_pure rfl

end Calls

/-! ### The configuration in force -/

/-- The configuration that was accepted last. -/
def acceptedLast (past : List Deployment) : Option (List Datum) :=
  (past.filter (·.answer)).getLast?.map (·.configuration)

theorem acceptedLast_concat (past : List Deployment) (d : Deployment) :
    acceptedLast (past ++ [d]) = if d.answer then some d.configuration else acceptedLast past := by
  unfold acceptedLast
  rw [List.filter_append]
  cases h : d.answer with
  | true => simp [h]
  | false => simp [h]

/-- The scheduler and its deployer have the row that was accepted last, or the one that was drawn
and nothing at all if none was. Beside them stand the deployments so far. -/
structure InAccord (slots : Nat) (Ok : List Int → Prop) (drawn : List Int)
    (configuration : List Datum) (p : List Deployment × Deployer μ × σ) (q : Deployer μ × σ) :
    Prop where
  same : p.2 = q
  force : ∃ last : Option (List Int), acceptedLast p.1 = last.map Datum.ofInts ∧
    configuration = Datum.ofInts (last.getD drawn) ∧ q.1.HasDeployed last ∧
    (last.getD drawn).length = slots ∧ Ok (last.getD drawn)
  failures : q.1.failures = p.1.countP (!·.answer)

variable [Journal σ] {access : MacAccess μ σ} {draws : Draws σ α} {slots channels : Nat}
  {Ok : List Int → Prop} {drawn : List Int}

/-- An answer to a deployment keeps the two in accord. -/
theorem InAccord.deploy (draws : Draws σ α) (hmacs : access.Responsive) {cs : List Int}
    (hlen : cs.length = slots) (hok : Ok cs) {configuration : List Datum}
    {p : List Deployment × Deployer μ × σ} {q : Deployer μ × σ}
    (h : InAccord slots Ok drawn configuration p q) :
    ∃ answer past q', (Needs.ofDeployer access draws).deploy (Datum.ofInts cs) q = .ok answer q' ∧
      (Needs.ofDeployer access draws).recording.deploy (Datum.ofInts cs) p
        = .ok answer (past, q') ∧
      InAccord slots Ok drawn (if answer then Datum.ofInts cs else configuration)
        (past, q') q' := by
  obtain ⟨past, _⟩ := p
  obtain ⟨rfl, ⟨last, hpast, hconf, hlast, hlength, hadmitted⟩, hfail⟩ := h
  obtain ⟨answer, q', hdeploy, hlast', hfail'⟩ := ends_iff.1 (hlast.ends_deploy hmacs cs _)
  refine ⟨answer, past ++ [⟨Datum.ofInts cs, answer⟩], q', hdeploy, ?_, rfl, ?_, ?_⟩
  · simp only [Needs.recording, Needs.ofDeployer, hdeploy]
  · rw [acceptedLast_concat]
    cases answer with
    | true => exact ⟨some cs, rfl, rfl, hlast', hlen, hok⟩
    | false => exact ⟨last, hpast, hconf, hlast', hlength, hadmitted⟩
  · simp only at hfail hfail' ⊢
    rw [hfail', hfail, List.countP_append]
    cases answer <;> rfl

/-- Writing deployments down changes nothing about them, and the two stay in accord. -/
theorem alike_recording (hmacs : access.Responsive)
    (hdraws : ∀ s, Meets True (draws.below channels) s fun i _ => 0 ≤ i ∧ i < channels)
    (hpos : 0 < channels)
    (hadmits : ∀ cs : List Int, cs.length = slots → (∀ c ∈ cs, 0 ≤ c ∧ c < channels) → Ok cs) :
    Needs.Alike slots channels Ok (InAccord slots Ok drawn)
      (Needs.ofDeployer access draws).recording (Needs.ofDeployer access draws) where
  channels_pos := hpos
  admits := hadmits
  in_use h := by
    obtain ⟨last, -, hconf, -, hlen, hok⟩ := h.force
    exact ⟨last.getD drawn, hconf, hlen, hok⟩
  deploy hlen hok h := by
    obtain ⟨answer, past, q', hdeploy, hrec, hnext⟩ := h.deploy draws hmacs hlen hok
    rw [hdeploy, hrec]
    exact ⟨rfl, hnext⟩
  uniform configuration := by
    rintro ⟨past, d, s⟩ _ h
    obtain rfl := h.same
    simp only [Needs.recording, Needs.ofDeployer, Draws.outside, Action.outside]
    cases draws.uniform s with
    | ok u t => exact ⟨rfl, rfl, h.force, h.failures⟩
    | error f t => exact ⟨rfl, rfl, h.force, h.failures⟩
  below configuration := by
    rintro ⟨past, d, s⟩ _ h
    obtain rfl := h.same
    have hrange := hdraws s
    unfold Meets at hrange
    simp only [Needs.recording, Needs.ofDeployer, Draws.outside, Action.outside]
    cases hi : draws.below channels s with
    | ok i t =>
      rw [hi] at hrange
      exact ⟨⟨rfl, hrange⟩, rfl, h.force, h.failures⟩
    | error f t => exact ⟨rfl, rfl, h.force, h.failures⟩
  note {configuration p q} n h := by
    obtain rfl := h.same
    exact ⟨rfl, rfl, h.force, h.failures⟩

omit [Journal σ] in
/-- A row that is drawn has a channel for every slot. -/
theorem meets_each
    (hdraws : ∀ s, Meets True (draws.below channels) s fun i _ => 0 ≤ i ∧ i < channels)
    (count : Nat) (s : σ) :
    Meets True (draws.each channels count) s fun cs _ =>
      cs.length = count ∧ ∀ c ∈ cs, 0 ≤ c ∧ c < channels := by
  induction count generalizing s with
  | zero => exact ⟨rfl, by simp⟩
  | succ count ih =>
    unfold Draws.each
    simp only [meets_bind, meets_pure]
    apply (hdraws s).mono
    intro i t hi
    apply (ih t).mono
    intro cs u hcs
    exact ⟨by simp [hcs.1], List.forall_mem_cons.2 ⟨hi, hcs.2⟩⟩

omit [Journal σ] in
theorem drawConfiguration_eq_ok
    (hdraws : ∀ s, Meets True (draws.below channels) s fun i _ => 0 ≤ i ∧ i < channels)
    {c : ChannelHopping α} (hslots : c.table.slots = slots)
    (hchannels : c.table.channels = channels) {s₀ s : σ}
    (h : drawConfiguration draws c s₀ = .ok drawn s) :
    drawn.length = slots ∧ ∀ i ∈ drawn, 0 ≤ i ∧ i < channels := by
  unfold drawConfiguration Draws.row at h
  rw [hslots, hchannels] at h
  have hrow : Meets True (draws.each channels slots >>= fun drawn =>
      if drawn.all Word.isSigned then pure drawn else throw .tooLarge) s₀ fun cs _ =>
        cs.length = slots ∧ ∀ c ∈ cs, 0 ≤ c ∧ c < channels := by
    rw [meets_bind]
    apply (meets_each hdraws slots s₀).mono
    intro cs t hcs
    split
    · exact hcs
    · trivial
  exact hrow.post h

/-- A row of another length is not handed to any MAC layer. -/
theorem deployConfiguration_of_length_ne {needs : Needs σ α} {c : ChannelHopping α} {cs : List Int}
    (h : cs.length ≠ c.table.slots) (s : σ) :
    deployConfiguration needs (Datum.ofInts cs) (c, s) = .error (.violated "") (c, s) := by
  have hguard : (Datum.ofInts cs).length ≠ c.table.slots := by
    rwa [Datum.ofInts, List.length_map]
  simp only [deployConfiguration, bind, EStateM.bind, part, if_pos hguard]
  rfl

/-- A row of the right length is answered; the scheduler and its deployer take it over together,
or keep what they have. -/
theorem deployConfiguration_eq_ok (hmacs : access.Responsive) {c : ChannelHopping α}
    {d : Deployer μ} {last : Option (List Int)} (hlast : d.HasDeployed last) {cs : List Int}
    (hlen : cs.length = c.table.slots) (s : σ) :
    ∃ answer d' t, deployConfiguration (Needs.ofDeployer access draws) (Datum.ofInts cs) (c, d, s)
        = .ok answer (c.answered ⟨Datum.ofInts cs, answer⟩, d', t) ∧
      d'.HasDeployed (if answer then some cs else last) ∧
      d'.failures = d.failures + if answer then 0 else 1 := by
  have hguard : ¬(Datum.ofInts cs).length ≠ c.table.slots := by
    rw [Datum.ofInts, List.length_map, hlen]
    exact fun hne => hne rfl
  have hends : Ends (deployConfiguration (Needs.ofDeployer access draws) (Datum.ofInts cs))
      (c, d, s) fun answer p => p.1 = c.answered ⟨Datum.ofInts cs, answer⟩ ∧
        p.2.1.HasDeployed (if answer then some cs else last) ∧
        p.2.1.failures = d.failures + if answer then 0 else 1 := by
    unfold deployConfiguration
    simp only [ends_bind, ends_part, if_neg hguard, ends_outside]
    apply (hlast.ends_deploy hmacs cs s).mono
    rintro answer ⟨d', t⟩ hd
    cases answer with
    | true =>
      simp only [if_true, remark, ends_bind, ends_change, ends_part, ends_note, ends_pure]
      exact ⟨hmacs.obstacle?_eq_none _ _, rfl, hd⟩
    | false =>
      simp only [Bool.false_eq_true, if_false, remark, ends_bind, ends_part, ends_note, ends_pure]
      exact ⟨hmacs.obstacle?_eq_none _ _, rfl, hd⟩
  obtain ⟨answer, ⟨_, d', t⟩, he, rfl, hd⟩ := ends_iff.1 hends
  exact ⟨answer, d', t, he, hd⟩

variable [Arith α]

/-- Over every run, the scheduler's configuration and what its deployer deployed last are the row
that was accepted last, or the row drawn at first and nothing if none was; the failures are the
deployments refused. A further deployment is taken over by both, or by neither at the price of one
failure, and a row of another length reaches no MAC layer at all. Unless a row from outside the
table was handed in, the configuration has a channel of the table for every slot. -/
theorem configuration_eq_deployed {params : Parameters α} {name : Datum} {voice : Voice}
    {c : ChannelHopping α} (hcreate : create params name voice (.int slots) (.int channels) = .ok c)
    (hmacs : access.Responsive)
    (hdraws : ∀ s, Meets True (draws.below channels) s fun i _ => 0 ≤ i ∧ i < channels)
    {s₀ s : σ} (hdrawn : drawConfiguration draws c s₀ = .ok drawn s) (mode : DeployMode)
    (ids : List μ) (calls : List Call) :
    ∃ outcomes c' past d t last,
      performEach (Needs.ofDeployer access draws) calls
        (c.startingWith drawn, .create mode ids, s) = .ok outcomes (c', d, t) ∧
      performEach (Needs.ofDeployer access draws).recording calls
        (c.startingWith drawn, [], .create mode ids, s) = .ok outcomes (c', past, d, t) ∧
      acceptedLast past = last.map Datum.ofInts ∧
      c'.configuration = Datum.ofInts (last.getD drawn) ∧ d.HasDeployed last ∧
      d.failures = past.countP (!·.answer) ∧
      (∀ cs : List Int, cs.length = slots → ∃ answer d' u,
        deployConfiguration (Needs.ofDeployer access draws) (Datum.ofInts cs) (c', d, t)
          = .ok answer (c'.answered ⟨Datum.ofInts cs, answer⟩, d', u) ∧
        d'.HasDeployed (if answer then some cs else last) ∧
        d'.failures = d.failures + if answer then 0 else 1) ∧
      (∀ cs : List Int, cs.length ≠ slots → ∀ made,
        deployConfiguration (Needs.ofDeployer access.recording draws.outside) (Datum.ofInts cs)
          (c', d, made, t) = .error (.violated "") (c', d, made, t)) ∧
      ((∀ cs, .deployment (some cs) ∈ calls → cs.length = slots →
          ∀ i ∈ cs, (0 : Int) ≤ i ∧ i < channels) →
        IsConfiguration slots channels c'.configuration) := by
  obtain ⟨hfits, rfl⟩ := create_eq_ok hcreate
  obtain ⟨hlen, hrange⟩ : drawn.length = slots ∧ ∀ i ∈ drawn, 0 ≤ i ∧ i < channels :=
    drawConfiguration_eq_ok hdraws rfl rfl hdrawn
  let ranged : Prop := ∀ cs, Call.deployment (some cs) ∈ calls → cs.length = slots →
    ∀ i ∈ cs, (0 : Int) ≤ i ∧ i < channels
  let Ok : List Int → Prop := fun cs => ranged → ∀ i ∈ cs, 0 ≤ i ∧ i < channels
  have halike : Needs.Alike slots channels Ok (InAccord slots Ok drawn)
      (Needs.ofDeployer access draws).recording (Needs.ofDeployer access draws) :=
    alike_recording hmacs hdraws hfits.channels_pos fun _ _ hcs _ => hcs
  have hstart : InAccord slots Ok drawn (Datum.ofInts drawn) ([], .create mode ids, s)
      (.create mode ids, s) := {
    same := rfl
    force := ⟨none, rfl, rfl, Deployer.hasDeployed_create mode ids, hlen, fun _ => hrange⟩
    failures := by cases mode <;> rfl }
  have hok : ∀ cs, .deployment (some cs) ∈ calls → cs.length = slots → Ok cs :=
    fun cs hcs hlen hranged => hranged cs hcs hlen
  have hrun := agree_performEach halike hok
  have hends := hrun.ends
    (s := ((fresh params name voice slots channels).startingWith drawn, [], .create mode ids, s))
    (t := ((fresh params name voice slots channels).startingWith drawn, .create mode ids, s))
    ⟨rfl, rfl, rfl, hstart⟩ (ends_performEach _ calls _)
  obtain ⟨_, ⟨_, d, t⟩, hplain, outcomes, ⟨c', past, q⟩, hrec, -, rfl, rfl, hslots, -, haccord⟩ :=
    ends_iff.1 hends
  obtain rfl : q = (d, t) := haccord.same
  obtain ⟨last, hpast, hconf, hlast, hlength, hadmitted⟩ := haccord.force
  refine ⟨outcomes, c', past, d, t, last, hplain, hrec, hpast, hconf, hlast, haccord.failures,
    ?_, ?_, ?_⟩
  · intro cs hcs
    exact deployConfiguration_eq_ok hmacs hlast (hcs.trans hslots.symm) t
  · intro cs hcs made
    exact deployConfiguration_of_length_ne (fun he => hcs (he.trans hslots)) (d, made, t)
  · intro hranged
    exact ⟨last.getD drawn, hconf, hlength, hadmitted hranged⟩

/-- MAC layers that answer as they are told to take or refuse every edit. -/
theorem responsive_whims : Whims.access.Responsive := by
  have hcall : ∀ effect w, (Whims.call effect).refusal?.Ends w fun _ _ => True := by
    intro effect w
    have hwilful : (Whims.call effect).Wilful (fun _ => ()) id :=
      Whims.wilful_call _ (fun _ _ => rfl) fun _ => rfl
    exact (hwilful w).mono fun _ _ _ => trivial
  exact ⟨fun _ _ => hcall _, fun _ _ _ => hcall _, fun _ _ => hcall _, fun _ _ => hcall _,
    fun _ _ => rfl⟩

def steady : Draws Whims Float where
  uniform := pure 0.5
  below _ := pure 0

/-- Two slotframes of two slots, with two deployments by hand, the second one too short. -/
def twoSlotframes : List Call :=
  [.boundary (.int 0), .outcome (.int 1) (.int 0) true, .deployment (some [1, 2]),
    .deployment (some [1]), .boundary (.int 2), .deployment none, .closing]

/-- Links for two MAC layers, of which the second one refuses the first configuration. -/
theorem configuration_eq_deployed_whims :
    ∃ outcomes c d t last,
      performEach (Needs.ofDeployer Whims.access steady) twoSlotframes
        ((fresh (.level 0.5 1) (.text "PAN") .ofModule 2 3).startingWith [0, 0],
          .create .links [0, 1], Whims.start [false, false, true]) = .ok outcomes (c, d, t) ∧
      c.configuration = Datum.ofInts (last.getD [0, 0]) ∧ d.HasDeployed last ∧
      IsConfiguration 2 3 c.configuration := by
  have hcreate : create (.level 0.5 1) (.text "PAN") .ofModule (.int (2 : Nat)) (.int (3 : Nat))
      = .ok (fresh (.level (0.5 : Float) 1) (.text "PAN") .ofModule 2 3) := rfl
  have hdraws : ∀ w, Meets True (steady.below 3) w fun i _ => 0 ≤ i ∧ i < (3 : Nat) := by
    intro w
    show (0 : Int) ≤ 0 ∧ (0 : Int) < 3
    decide
  have hdrawn :
      drawConfiguration steady (fresh (.level (0.5 : Float) 1) (.text "PAN") .ofModule 2 3)
        (Whims.start [false, false, true]) = .ok [0, 0] (Whims.start [false, false, true]) := rfl
  obtain ⟨outcomes, c, past, d, t, last, hrun, -, -, hconf, hlast, -, -, -, hranged⟩ :=
    configuration_eq_deployed hcreate responsive_whims hdraws hdrawn .links [0, 1] twoSlotframes
  refine ⟨outcomes, c, d, t, last, hrun, hconf, hlast, hranged ?_⟩
  intro cs hcs hlen
  simp only [twoSlotframes, List.mem_cons, Call.deployment.injEq, Option.some.injEq, reduceCtorEq,
    List.not_mem_nil, or_false, false_or] at hcs
  rcases hcs with rfl | rfl
  · decide
  · cases hlen

end ChannelHopping
end TschLearning
