import TschLearning.Proofs.Deployer.Responsive
import TschLearning.Proofs.Learning.Rates
import TschLearning.Proofs.Scheduler.Akin
import TschLearning.Proofs.Scheduler.Clock
import TschLearning.Proofs.Scheduler.Counts
import TschLearning.Proofs.Scheduler.Slots

/-! A slot scheduler whose deployments are written down. It does what it does without that, and the
slot numbers that it accepts tell how many deployments it has made and how its gate stands. -/

namespace TschLearning

open TschLearning.Action

/-- The same surroundings, with something beside them in the one case. -/
def Besides {τ σ : Type} (p : τ × σ) (s : σ) : Prop := p.2 = s

/-- What the surroundings do is the same with something beside them. -/
theorem agree_besides {τ σ β : Type} (x : Action σ β) :
    Agree (Besides (τ := τ)) Eq x.outside x := by
  rintro ⟨t, s⟩ _ rfl
  unfold Action.outside
  dsimp only
  cases x s with
  | ok b s' => exact ⟨rfl, rfl⟩
  | error f s' => exact ⟨rfl, rfl⟩

namespace SlotSelection

variable {σ τ μ α : Type} [Journal σ]

/-! ### Deployments written down -/

/-- A deployment of the device's link, and the answer. -/
structure LinkDeployment where
  links : Links
  answer : Bool

/-- Deployments are written down, the latest last. -/
def writing (deploy : Deploys μ σ) : Deploys μ (List LinkDeployment × σ) :=
  fun links (d, made, s) =>
    match deploy links (d, s) with
    | .ok answer (d, s) => .ok answer (d, made ++ [⟨links, answer⟩], s)
    | .error f (d, s) => .error f (d, made, s)

omit [Journal σ] in
theorem ends_writing {deploy : Deploys μ σ} {links : Links} {d : LinkDeployer μ}
    {made : List LinkDeployment} {s : σ}
    {post : Bool → LinkDeployer μ × List LinkDeployment × σ → Prop} :
    Ends (writing deploy links) (d, made, s) post ↔
      Ends (deploy links) (d, s) fun answer p =>
        post answer (p.1, made ++ [⟨links, answer⟩], p.2) := by
  unfold Ends writing
  dsimp only
  cases deploy links (d, s) <;> rfl

/-- What a scheduler needs from the surroundings of its surroundings. -/
def Needs.outside (needs : Needs μ σ α) : Needs μ (τ × σ) α where
  macs := needs.macs.outside
  draws := needs.draws.outside

variable [Arith α]

def hear (needs : Needs μ σ α) : Signal → Action (SlotSelection μ α × σ) Unit
  | .boundary x => onSlotBoundary needs x
  | .outcome slot _ success => onTransmissionOutcome slot success

/-- Calls a scheduler and writes down its deployments. -/
def hearWriting (needs : Needs μ σ α) :
    Signal → Action (SlotSelection μ α × List LinkDeployment × σ) Unit
  | .boundary x => onSlotBoundaryBy (writing (LinkDeployer.deploy needs.macs)) needs.outside x
  | .outcome slot _ success => onTransmissionOutcome slot success

/-- A slot number that is not accepted changes nothing, neither the scheduler nor anything around
it. -/
theorem onSlotBoundaryBy_of_later?_eq_none (deploy : Deploys μ σ) (needs : Needs μ σ α)
    {a : SlotSelection μ α} {x : Datum} (h : Signal.later? a.asn x = none) (s : σ) :
    onSlotBoundaryBy deploy needs x (a, s) = .error (Signal.refusal a.label a.asn x) (a, s) := by
  unfold onSlotBoundaryBy
  obtain hcheck | ⟨asn, l, hcheck, hlast, hle, hrefusal⟩ :=
    Signal.checkSlotNumber_of_later?_eq_none h a.label
  · rw [hcheck]
    rfl
  · rw [hcheck, hrefusal]
    simp only [bind, EStateM.bind, pure, EStateM.pure, Action.ofExcept, part, hlast, if_pos hle]
    rfl

/-! ### With and without -/

omit [Journal σ] [Arith α] in
theorem agree_writing (deploy : Deploys μ σ) (links : Links) :
    Agree (Beside (LinkDeployer μ) Besides) Eq (writing deploy links) (deploy links) := by
  rintro ⟨d, made, s⟩ ⟨_, _⟩ ⟨rfl, rfl⟩
  simp only [writing]
  cases deploy links (d, s) with
  | ok answer p => exact ⟨rfl, rfl, rfl⟩
  | error f p => exact ⟨rfl, rfl, rfl⟩

omit [Arith α] in
theorem matching_writing (deploy : Deploys μ σ) (needs : Needs μ σ α) :
    Needs.Matching Besides (writing deploy) deploy needs.outside needs where
  deploy links := agree_writing deploy links
  request _ _ _ := agree_besides _
  draws := ⟨agree_besides _, fun _ => agree_besides _⟩
  note n := by
    rw [note_eq_outside]
    exact agree_besides _

theorem agree_hearWriting (needs : Needs μ σ α) (call : Signal) :
    Agree (Beside (SlotSelection μ α) Besides) Eq (hearWriting needs call) (hear needs call) := by
  have h := matching_writing (LinkDeployer.deploy needs.macs) needs
  cases call with
  | boundary x => exact agree_onSlotBoundaryBy h x
  | outcome slot channel success => exact agree_onTransmissionOutcome h.note slot success

/-! ### Slotframes -/

/-- MAC layers that take or refuse every edit, and a draw for every choice. -/
structure Needs.Willing (needs : Needs μ σ α) : Prop where
  macs : needs.macs.Responsive
  uniform_ends : ∀ s, Ends needs.draws.uniform s fun _ _ => True

/-- MAC layers that take every request. -/
def Needs.Obliging (needs : Needs μ σ α) : Prop :=
  ∀ i destination size s, Ends (needs.macs.request i destination size) s fun _ _ => True

/-- The number that is drawn next is one that the surroundings tell, whatever is noted until
then. -/
structure Needs.Foretells (needs : Needs μ σ α) (next : σ → α) : Prop where
  uniform : ∀ s, Ends needs.draws.uniform s fun u _ => u = next s
  enter : ∀ n s, next (Journal.enter n s) = next s

omit [Journal σ] [Arith α] in
/-- Whether a choice of the scheduler may explore. -/
def mayExplore (a : SlotSelection μ α) : Bool := a.active || a.params.exploreWhileSettling

/-- The scheduler at the start of a slotframe, when it is about to choose a slot. -/
def begun (a : SlotSelection μ α) (asn : Nat) : SlotSelection μ α :=
  { a with
    activation := if 0 < asn then a.activation.advance else a.activation
    peaking := a.peaking.decay a.params.sigma }

variable {needs : Needs μ σ α} {a : SlotSelection μ α} {made : List LinkDeployment}

omit [Arith α] in
/-- What was written down is not touched by notes and draws. -/
theorem Needs.Willing.blind (h : needs.Willing) (made : List LinkDeployment) :
    Blind False (needs.outside (τ := List LinkDeployment)) fun _ p => p.1 = made where
  kin hp _ := hp
  note n hp := ⟨h.macs.obstacle?_eq_none n _, hp⟩
  uniform {_ p} hp := by
    obtain ⟨made, s⟩ := p
    show Meets False needs.draws.uniform.outside (made, s) _
    rw [meets_outside]
    exact (h.uniform_ends s).mono fun _ _ _ => hp

omit [Arith α] in
theorem Needs.Willing.ends_note (h : needs.Willing) {κ : Type} (k : κ) (n : Note)
    (made : List LinkDeployment) (s : σ) :
    Ends (note n) (k, made, s) fun _ p => ∃ t, p = (k, made, t) :=
  Action.ends_note.2 ⟨h.macs.obstacle?_eq_none n s, _, rfl⟩

omit [Arith α] in
/-- Counting a slotframe boundary advances the gate. Nothing is drawn for it. -/
theorem Needs.Willing.ends_settle (h : needs.Willing) (s : σ) :
    Ends settle (a, made, s) fun _ p =>
      p.1 = { a with activation := a.activation.advance } ∧ p.2.1 = made ∧
        ∀ next, needs.Foretells next → next p.2.2 = next s := by
  have hmade := (h.blind made).meets_settle (a := a) (s := (made, s)) rfl
  obtain ⟨u, ⟨b, p⟩, hrun, hp⟩ := ends_iff.1 (meets_false.1 hmade)
  refine ends_iff.2 ⟨u, (b, p), hrun, ?_⟩
  unfold settle at hrun
  simp only [bind, EStateM.bind, part, Action.within] at hrun
  cases hpassed : Settling.epochPassed (fun _ => a.label) (a.activation, made, s) with
  | ok opens q =>
    rw [hpassed] at hrun
    cases hrun
    refine ⟨congrArg (fun activation => { a with activation })
      (Settling.eq_advance_of_epochPassed_eq_ok hpassed).1, hp, fun next hnext => ?_⟩
    have hkeeps := Settling.keeps_epochPassed
      (P := fun q : List LinkDeployment × σ => next q.2 = next s)
      (fun n q hq => (hnext.enter n q.2).trans hq) (fun _ => a.label) (a.activation, made, s) rfl
    rw [hpassed] at hkeeps
    exact hkeeps.2
  | error f q =>
    rw [hpassed] at hrun
    cases hrun

/-- A choice is one of the two slots that it can be, and the quietest one if the number that is
drawn for it says so. -/
theorem Needs.Willing.ends_chooseAction (h : needs.Willing) (s : σ) :
    Ends (chooseAction needs.outside) (a, made, s) fun slot p =>
      a.Eligible slot ∧ p.1 = a ∧ p.2.1 = made ∧
        ∀ next, needs.Foretells next → a.mayExplore = true → Arith.lt (next s) a.epsilon = true →
          slot = a.peaking.quietest := by
  have hchoice := meets_false.1 ((h.blind made).meets_chooseAction (a := a) (s := (made, s)) rfl)
  obtain ⟨slot, ⟨b, p⟩, hrun, ⟨hslot, hb⟩, hp⟩ := ends_iff.1 hchoice
  refine ends_iff.2 ⟨slot, (b, p), hrun, hslot, hb, hp, fun next hnext hmay hlt => ?_⟩
  obtain ⟨u, t, huniform, rfl⟩ := ends_iff.1 (hnext.uniform s)
  have hdraw : (needs.outside (τ := List LinkDeployment)).draws.outside.uniform (a, made, s)
      = .ok (next s) (a, made, t) := by
    show Action.outside (Action.outside needs.draws.uniform) (a, made, s) = _
    simp only [Action.outside, huniform]
  unfold mayExplore at hmay
  unfold chooseAction Selection.chooseSlot Selection.explores at hrun
  simp only [bind, EStateM.bind, part, hmay, if_true, hdraw, pure, EStateM.pure, hlt] at hrun
  split at hrun
  · cases hrun
    rfl
  · cases hrun

omit [Arith α] in
/-- A deployment is written down, whatever the answer. -/
theorem Needs.Willing.ends_moveBy (h : needs.Willing) {channel : Int}
    (hchannel : a.channelOffset = .int channel) (slot : Nat) (s : σ) :
    Ends (moveBy (writing (LinkDeployer.deploy needs.macs)) slot) (a, made, s) fun _ p =>
      ∃ deployer action answer, p.1 = { a with deployer, action } ∧
        p.2.1 = made ++ [⟨⟨[((slot : Int), channel)]⟩, answer⟩] := by
  have hlinks : a.linkIn slot = .ok (.ofPairs [((slot : Int), channel)]) := by
    rw [linkIn, hchannel]
    rfl
  unfold moveBy
  simp only [ends_bind, ends_part, hlinks, ends_ofExcept, Except.ok.injEq, exists_eq_left',
    ends_within, ends_writing]
  refine (LinkDeployer.ends_deploy_responsive h.macs a.deployer _ s).mono ?_
  rintro answer ⟨d, t⟩ -
  cases answer with
  | true =>
    rw [if_pos rfl, ends_change]
    exact ⟨d, _, _, rfl, rfl⟩
  | false =>
    rw [if_neg Bool.false_ne_true]
    unfold remark
    rw [ends_bind, ends_part]
    refine (h.ends_note _ _ _ _).mono ?_
    rintro _ _ ⟨t, rfl⟩
    exact ⟨d, _, _, rfl, rfl⟩

/-- What comes of a slotframe that a scheduler `b` has begun: it makes one deployment, of a link in
a slot that it chose, and maybe a request. The slot is the quietest one if the number that is drawn
for the choice says so. -/
def Launches (needs : Needs μ σ α) (channel : Int) (b : SlotSelection μ α)
    (made : List LinkDeployment) (s : σ) (outcome : Except Fault Unit)
    (p : SlotSelection μ α × List LinkDeployment × σ) : Prop :=
  ∃ deployer action attempts requested, ∃ slot : Nat, ∃ answer,
    p.1 = { b with deployer, action, attempts, requested } ∧
    p.2.1 = made ++ [⟨⟨[((slot : Int), channel)]⟩, answer⟩] ∧
    (needs.Obliging → outcome = .ok ()) ∧ b.Eligible slot ∧
    ∀ next, needs.Foretells next → b.mayExplore = true → Arith.lt (next s) b.epsilon = true →
      slot = b.peaking.quietest

/-- A slotframe starts with a deployment, once the scores have decayed. A request that fails comes
after that. -/
theorem Needs.Willing.settles_startSlotframeBy (h : needs.Willing) {channel : Int}
    (hchannel : a.channelOffset = .int channel) (asn : Nat) (s : σ) :
    Settles (startSlotframeBy (writing (LinkDeployer.deploy needs.macs)) needs.outside asn)
      (a, made, s) (Launches needs channel (a.begun asn) made s) := by
  have hrequest : ∀ (b : SlotSelection μ α) (made : List LinkDeployment) (t : σ),
      Settles (requestTransmission needs.outside) (b, made, t) fun outcome p =>
        (needs.Obliging → outcome = .ok ()) ∧ p.1 = b.asking ∧ p.2.1 = made := by
    intro b made t
    unfold requestTransmission remark
    rw [settles_change_bind, settles_part_bind, bind_assoc, settles_part_bind]
    refine Ends.settles_bind (h.ends_note _ _ _ _) ?_
    rintro _ _ ⟨u, rfl⟩
    rw [settles_outside]
    show Settles (needs.macs.request _ _ _).outside (made, u) _
    rw [settles_outside]
    unfold Settles
    split
    · exact ⟨fun _ => rfl, rfl, rfl⟩
    · rename_i f v hfault
      refine ⟨fun hobliging => ?_, rfl, rfl⟩
      obtain ⟨_, _, hok, -⟩ := ends_iff.1 (hobliging _ _ _ _)
      cases hfault.symm.trans hok
  have huniform : ∀ (b : SlotSelection μ α) (made : List LinkDeployment) (t : σ),
      Ends (needs.outside (τ := List LinkDeployment)).draws.uniform.outside (b, made, t)
        fun _ p => ∃ u, p = (b, made, u) := by
    intro b made t
    rw [ends_outside]
    show Ends needs.draws.uniform.outside (made, t) _
    rw [ends_outside]
    exact (h.uniform_ends t).mono fun _ u _ => ⟨u, rfl⟩
  have hrest : ∀ (b : SlotSelection μ α) (t : σ), b.channelOffset = .int channel → Settles (do
        let slot ← chooseAction needs.outside
        moveBy (writing (LinkDeployer.deploy needs.macs)) slot
        let u ← (needs.outside (τ := List LinkDeployment)).draws.uniform.outside
        if Arith.lt u (← Action.part).params.packetProbability then
          requestTransmission needs.outside) (b, made, t) (Launches needs channel b made t) := by
    intro b t hb
    refine Ends.settles_bind (h.ends_chooseAction t) ?_
    rintro slot ⟨_, _, t'⟩ ⟨hslot, rfl, rfl, hquietest⟩
    refine Ends.settles_bind (h.ends_moveBy hb slot t') ?_
    rintro _ ⟨_, _, t''⟩ ⟨deployer, action, answer, rfl, rfl⟩
    refine Ends.settles_bind (huniform _ _ _) ?_
    rintro u _ ⟨t₃, rfl⟩
    rw [settles_part_bind]
    split
    · refine (hrequest _ _ _).mono ?_
      rintro _ ⟨_, _, t₄⟩ ⟨hok, rfl, rfl⟩
      exact ⟨deployer, action, _, _, slot, answer, rfl, rfl, hok, hslot, hquietest⟩
    · exact ⟨deployer, action, _, _, slot, answer, rfl, rfl, fun _ => rfl, hslot, hquietest⟩
  unfold startSlotframeBy
  by_cases hpos : 0 < asn
  · rw [if_pos hpos]
    refine Ends.settles_bind (h.ends_settle s) ?_
    rintro _ ⟨_, _, t⟩ ⟨rfl, rfl, hnext⟩
    have hbegun : a.begun asn = { a with
        activation := a.activation.advance, peaking := a.peaking.decay a.params.sigma } := by
      simp only [begun, if_pos hpos]
    rw [settles_change_bind, hbegun]
    refine (hrest _ t (by exact hchannel)).mono ?_
    rintro _ _ ⟨deployer, action, attempts, requested, slot, answer, hp, hmade, hok, hslot, hq⟩
    exact ⟨deployer, action, attempts, requested, slot, answer, hp, hmade, hok, hslot,
      fun next hf hmay hlt => hq next hf hmay (by rwa [hnext next hf])⟩
  · have hbegun : a.begun asn = { a with peaking := a.peaking.decay a.params.sigma } := by
      simp only [begun, if_neg hpos]
    rw [if_neg hpos, settles_change_bind, hbegun]
    exact hrest _ s hchannel

/-- The start of a slot that is accepted. Unless a slotframe starts with it, only the slot number
and the exploration rate change. -/
theorem Needs.Willing.settles_onSlotBoundaryBy (h : needs.Willing) {channel : Int}
    (hchannel : a.channelOffset = .int channel) {asn : Nat}
    (hlater : ∀ last, a.asn = some last → last < asn) {epsilon : α}
    (hrate : a.annealed asn = .ok epsilon) (s : σ) :
    Settles (onSlotBoundaryBy (writing (LinkDeployer.deploy needs.macs)) needs.outside (.int asn))
      (a, made, s) fun outcome p =>
        if asn % a.table.slots = 0 then
          Launches needs channel (begun { a with asn := some asn, epsilon } asn) made s outcome p
        else outcome = .ok () ∧ p.1 = { a with asn := some asn, epsilon } ∧ p.2.1 = made := by
  rw [settles_congr (onSlotBoundaryBy_of_later _ _ hlater (made, s)), settles_ofExcept_bind, hrate]
  dsimp only
  rw [settles_change_bind]
  split
  · exact h.settles_startSlotframeBy (a := { a with asn := some asn, epsilon }) hchannel asn s
  · exact ⟨rfl, rfl, rfl⟩

/-- An outcome, whatever comes of it, leaves the gate and the deployments as they are. -/
theorem Needs.Willing.settles_onTransmissionOutcome (h : needs.Willing) (slot : Datum)
    (success : Bool) (s : σ) :
    Settles (onTransmissionOutcome slot success) (a, made, s) fun _ p =>
      ∃ table successes delay requested, table.slots = a.table.slots ∧
        p.1 = { a with table, successes, delay, requested } ∧ p.2.1 = made := by
  have happly : ∀ (table : ValueTable α) (index : Nat), Settles
      (SlotReward.apply a.params (.int index) success) (table, made, s) fun _ p =>
        p.1.slots = table.slots ∧ p.2.1 = made := by
    intro table index
    unfold SlotReward.apply
    rw [settles_part_bind, settles_ofExcept_bind]
    cases SlotReward.step a.params table (.int index) success with
    | error f => exact ⟨rfl, rfl⟩
    | ok r =>
      dsimp only
      rw [settles_change_bind]
      refine Ends.settles_bind (h.ends_note _ _ _ _) ?_
      rintro _ _ ⟨u, rfl⟩
      exact ⟨Grid.slots_set .., rfl⟩
  have hcounting : ∃ successes delay requested,
      a.counting success = { a with successes, delay, requested } := by
    unfold counting confirmed
    cases success with
    | false => exact ⟨_, _, _, rfl⟩
    | true =>
      simp only [if_true]
      split
      · exact ⟨_, _, _, rfl⟩
      · exact ⟨_, _, _, rfl⟩
  obtain ⟨successes, delay, requested, hcounting⟩ := hcounting
  have hrest : ∀ index : Nat, Settles (if !a.active then remark (.slotOutcomeDiscarded index) else do
      let _ ← Action.within SlotSelection.table (fun table a => { a with table })
        (SlotReward.apply a.params (.int index) success)) (a.counting success, made, s) fun _ p =>
      ∃ table successes delay requested, table.slots = a.table.slots ∧
        p.1 = { a with table, successes, delay, requested } ∧ p.2.1 = made := by
    intro index
    rw [hcounting]
    split
    · unfold remark
      rw [settles_part_bind]
      refine settles_of_ends ((h.ends_note _ _ _ _).mono ?_)
      rintro _ _ ⟨u, rfl⟩
      exact ⟨_, successes, delay, requested, rfl, rfl, rfl⟩
    · simp only [settles_bind, settles_within]
      refine (happly _ index).mono ?_
      rintro (f | v) ⟨table, _, t⟩ ⟨hslots, rfl⟩
      · exact ⟨table, successes, delay, requested, hslots, rfl, rfl⟩
      · exact ⟨table, successes, delay, requested, hslots, rfl, rfl⟩
  unfold onTransmissionOutcome
  rw [settles_part_bind, settles_ofExcept_bind]
  cases checkIndex (possessive ownerLabel) "slot" a.table.slots slot with
  | error f => exact ⟨_, _, _, _, rfl, rfl, rfl⟩
  | ok index =>
    cases success with
    | true =>
      simp only [if_true, settles_change_bind]
      exact hrest index
    | false => exact hrest index

end SlotSelection
end TschLearning
