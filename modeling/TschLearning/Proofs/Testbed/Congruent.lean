import TschLearning.Proofs.Network.Alike
import TschLearning.Proofs.Scheduler.Akin
import TschLearning.Testbed.Networks

/-! Testbeds at different times. A slot comes out the same whatever the time is at which it is run,
and whatever other networks there are. Only the times that stand in the log differ, and there has to
be a way to write them. -/

namespace TschLearning.Testbed

open TschLearning.Action

/-! ### Testbeds with different frames -/

/-- A world without what was logged. -/
def unlogged (w : World) : World := { w with log := .fresh w.log.threshold }

/-- A world without the networks themselves and what was logged. -/
def core (w : World) : World := { unlogged w with networks := #[] }

theorem unlogged_congr {v w : World} (hcore : core v = core w)
    (hnetworks : v.networks = w.networks) : unlogged v = unlogged w := by
  have h : ∀ w, unlogged w = { core w with networks := w.networks } := fun _ => rfl
  rw [h, h, hcore, hnetworks]

/-- What no slot changes, and no scheduler looks at. -/
structure Frame where
  agenda : Agenda Fault Process
  networks : Array NetworkUnit
  generation : Nat
  threshold : Option Level

def frame (t : Testbed) : Frame :=
  ⟨t.agenda, t.world.networks, t.world.generation, t.world.log.threshold⟩

/-- No entry is kept at a time that cannot be written. -/
def Frame.Loggable (x : Frame) : Prop := x.threshold = none ∨ x.agenda.now.toFloat?.isSome

/-- Testbeds that are the same but for their frames and what was logged. -/
structure Congruent (x y : Frame) (t u : Testbed) : Prop where
  core_eq : core t.world = core u.world
  left : frame t = x
  right : frame u = y

variable {x y : Frame} {t u : Testbed}

/-- A change of what is not in the frame, by what is not in the frame. -/
structure Apart (f : World → World) : Prop where
  core : ∀ w, core (f w) = f (core w)
  networks : ∀ w, (f w).networks = w.networks
  generation : ∀ w, (f w).generation = w.generation
  log : ∀ w, (f w).log = w.log

namespace Congruent

theorem change (h : Congruent x y t u) {f : World → World} (hf : Apart f) :
    Congruent x y { t with world := f t.world } { u with world := f u.world } where
  core_eq := by rw [hf.core, hf.core, h.core_eq]
  left := by
    rw [← h.left]
    simp only [frame, hf.networks, hf.generation, hf.log]
  right := by
    rw [← h.right]
    simp only [frame, hf.networks, hf.generation, hf.log]

theorem threshold_eq (h : Congruent x y t u) : t.world.log.threshold = u.world.log.threshold :=
  congrArg (fun w => w.log.threshold) h.core_eq

end Congruent

theorem agree_changeWorld {f : World → World} (hf : Apart f) :
    Agree (Congruent x y) Eq (changeWorld f) (changeWorld f) := fun _ _ h => ⟨rfl, h.change hf⟩

/-- Components other than networks. -/
theorem alike_shelf {τ : Type} {get : World → Array τ} {put : Array τ → World → World}
    (hget : ∀ w, get (core w) = get w) (hput : ∀ a, Apart (put a)) :
    (shelf get put).Alike (Congruent x y) (shelf get put) := by
  have heq : ∀ {t u}, Congruent x y t u → get t.world = get u.world := by
    intro t u h
    rw [← hget t.world, h.core_eq, hget]
  refine ⟨fun {i t u} h => ?_, fun {i c t u} h => ?_⟩
  · show (get t.world)[i]? = (get u.world)[i]?
    rw [heq h]
  · have hchanged := h.change (hput ((get t.world).setIfInBounds i c))
    show Congruent x y { t with world := put ((get t.world).setIfInBounds i c) t.world }
      { u with world := put ((get u.world).setIfInBounds i c) u.world }
    rwa [heq h] at hchanged ⊢

section Parts

variable (x y)

theorem alike_macs : macs.Alike (Congruent x y) macs :=
  alike_shelf (fun _ => rfl) fun _ => ⟨fun _ => rfl, fun _ => rfl, fun _ => rfl, fun _ => rfl⟩

theorem alike_rngs : rngs.Alike (Congruent x y) rngs :=
  alike_shelf (fun _ => rfl) fun _ => ⟨fun _ => rfl, fun _ => rfl, fun _ => rfl, fun _ => rfl⟩

theorem alike_standIns : standIns.Alike (Congruent x y) standIns :=
  alike_shelf (fun _ => rfl) fun _ => ⟨fun _ => rfl, fun _ => rfl, fun _ => rfl, fun _ => rfl⟩

theorem alike_deployers : deployers.Alike (Congruent x y) deployers :=
  alike_shelf (fun _ => rfl) fun _ => ⟨fun _ => rfl, fun _ => rfl, fun _ => rfl, fun _ => rfl⟩

theorem alike_hoppings : hoppings.Alike (Congruent x y) hoppings :=
  alike_shelf (fun _ => rfl) fun _ => ⟨fun _ => rfl, fun _ => rfl, fun _ => rfl, fun _ => rfl⟩

theorem alike_selections : selections.Alike (Congruent x y) selections :=
  alike_shelf (fun _ => rfl) fun _ => ⟨fun _ => rfl, fun _ => rfl, fun _ => rfl, fun _ => rfl⟩

theorem alike_statistics : statistics.Alike (Congruent x y) statistics :=
  alike_shelf (fun _ => rfl) fun _ => ⟨fun _ => rfl, fun _ => rfl, fun _ => rfl, fun _ => rfl⟩

theorem agree_record (seen : List Snapshot) :
    Agree (Congruent x y) Eq (record seen) (record seen) :=
  agree_changeWorld ⟨fun _ => rfl, fun _ => rfl, fun _ => rfl, fun _ => rfl⟩

theorem alike_drawsFrom (handle : Nat) :
    (drawsFrom handle).Alike (Congruent x y) (drawsFrom handle) where
  uniform := (alike_rngs x y).agree_alone handle Generator.drawUniform
  below n := (alike_rngs x y).agree_alone handle (Generator.drawBelow n)

theorem agree_callStandIn (handle : Nat) (call : MacCall) (arguments : List Datum) :
    Agree (Congruent x y) Eq (callStandIn handle call arguments)
      (callStandIn handle call arguments) := by
  unfold callStandIn
  refine ((alike_standIns x y).agree_read handle).bind ?_
  rintro f _ rfl
  refine (agree_record x y _).bind fun _ _ _ => ?_
  refine ((alike_standIns x y).agree_update handle _).bind ?_
  rintro refusal _ rfl
  cases refusal with
  | some fault => exact (agree_throw (P := fun _ _ => False) _).bind fun _ _ hno => hno.elim
  | none =>
    dsimp only
    split
    · exact agree_throw _
    · exact agree_pure rfl

end Parts

/-! ### Entries -/

theorem obstacle?_of_loggable (h : (frame t).Loggable) (n : Note) :
    Journal.obstacle? n t =
      if t.world.log.keeps n then
        match n.wording with
        | .error f => some f
        | .ok _ => none
      else none := by
  show t.world.log.obstacle? (clock? t) n = _
  unfold Log.obstacle?
  split
  · rename_i hkeeps
    have hnow : t.agenda.now.toFloat?.isSome := by
      refine h.resolve_left fun hnone => ?_
      have hnone : t.world.log.threshold = none := hnone
      simp [Log.keeps, hnone] at hkeeps
    have hdatable : n.isDatable (clock? t) = true := by
      unfold Note.isDatable clock?
      split
      · simp
      · simp [hnow]
    cases n.wording with
    | error f => rfl
    | ok text => simp [hdatable]
  · rfl

theorem threshold_enter (l : Log) (time : Option Number) (n : Note) :
    (l.enter time n).threshold = l.threshold := by
  unfold Log.enter
  split <;> rfl

theorem core_enter (t : Testbed) (n : Note) : core (Journal.enter n t).world = core t.world :=
  congrArg (fun threshold => { t.world with log := .fresh threshold, networks := #[] })
    (threshold_enter t.world.log (clock? t) n)

theorem frame_enter (t : Testbed) (n : Note) : frame (Journal.enter n t) = frame t :=
  congrArg (Frame.mk t.agenda t.world.networks t.world.generation)
    (threshold_enter t.world.log (clock? t) n)

theorem agree_note_congruent (hx : x.Loggable) (hy : y.Loggable) (n : Note) :
    Agree (Congruent x y) Eq (note n : Action Testbed Unit) (note n) := by
  refine agree_note ?_
  rintro t u h
  have hkeeps : t.world.log.keeps n = u.world.log.keeps n := by
    unfold Log.keeps
    rw [h.threshold_eq]
  refine ⟨?_, ?_, ?_, ?_⟩
  · rw [obstacle?_of_loggable (h.left ▸ hx), obstacle?_of_loggable (h.right ▸ hy), hkeeps]
  · rw [core_enter, core_enter, h.core_eq]
  · rw [frame_enter, h.left]
  · rw [frame_enter, h.right]

/-! ### Slots -/

section Slots

variable (hx : x.Loggable) (hy : y.Loggable)

include hx hy

theorem alike_macAccess : macAccess.Alike (Congruent x y) macAccess := by
  have h : simulatedAccess.Alike (Congruent x y) simulatedAccess :=
    Mac.alike_access (alike_macs x y) (agree_note_congruent hx hy) _
  refine ⟨rfl, ?_, ?_, ?_, ?_, ?_⟩
  · rintro (⟨i, l⟩ | ⟨i, l⟩) s
    · exact h.deleteLink i s
    · exact agree_callStandIn x y i _ _
  · rintro (⟨i, l⟩ | ⟨i, l⟩) s c
    · exact h.addLink i s c
    · exact agree_callStandIn x y i _ _
  · rintro (⟨i, l⟩ | ⟨i, l⟩) cs
    · exact h.checkSequence i cs
    · exact agree_callStandIn x y i _ _
  · rintro (⟨i, l⟩ | ⟨i, l⟩) cs
    · exact h.setSequence i cs
    · exact agree_callStandIn x y i _ _
  · rintro (⟨i, l⟩ | ⟨i, l⟩) d n
    · exact h.request i d n
    · exact agree_callStandIn x y i _ _

theorem matching_hoppingNeeds (u : HoppingUnit) :
    ChannelHopping.Needs.Matching (Congruent x y) (hoppingNeeds u) (hoppingNeeds u) where
  deploy items := (alike_deployers x y).agree_run u.deployer
    (Deployer.agree_deploy_of_alike (agree_note_congruent hx hy) (alike_macAccess hx hy)
      (.channels items))
  draws := alike_drawsFrom x y u.rng
  note := agree_note_congruent hx hy

theorem matching_selectionNeeds (u : SelectionUnit) :
    SlotSelection.Needs.Matching (Congruent x y) (LinkDeployer.deploy (selectionNeeds u).macs)
      (LinkDeployer.deploy (selectionNeeds u).macs) (selectionNeeds u) (selectionNeeds u) where
  deploy links := LinkDeployer.agree_deploy_of_alike (agree_note_congruent hx hy)
    (alike_macAccess hx hy) links
  request := (alike_macAccess hx hy).request
  draws := alike_drawsFrom x y u.rng
  note := agree_note_congruent hx hy

omit hx hy in
theorem agree_inHopping {β : Type} (handle : Nat)
    {f : ChannelHopping.Needs Testbed Float → Action (ChannelHopping Float × Testbed) β}
    (hf : ∀ u, Agree (Beside (ChannelHopping Float) (Congruent x y)) Eq (f (hoppingNeeds u))
      (f (hoppingNeeds u))) :
    Agree (Congruent x y) Eq (inHopping handle f) (inHopping handle f) := by
  unfold inHopping
  refine ((alike_hoppings x y).agree_read handle).bind ?_
  rintro u _ rfl
  exact (alike_hoppings x y).agree_run handle (hf u).within

omit hx hy in
theorem agree_inSelection {β : Type} (handle : Nat)
    {f : SlotSelection.Needs MacRef Testbed Float → Action (SlotSelection MacRef Float × Testbed) β}
    (hf : ∀ u, Agree (Beside (SlotSelection MacRef Float) (Congruent x y)) Eq (f (selectionNeeds u))
      (f (selectionNeeds u))) :
    Agree (Congruent x y) Eq (inSelection handle f) (inSelection handle f) := by
  unfold inSelection
  refine ((alike_selections x y).agree_read handle).bind ?_
  rintro u _ rfl
  exact (alike_selections x y).agree_run handle (hf u).within

/-- Whatever the times are, a network gets the same from a testbed. -/
theorem alike_surroundings (rng : Nat) :
    (surroundings rng).Alike (Congruent x y) (surroundings rng) where
  read := (alike_macs x y).agree_read
  update i f := (alike_macs x y).agree_update i f
  uniform := (alike_drawsFrom x y rng).uniform
  boundary k asn := by
    dsimp only [surroundings]
    cases k with
    | hopping i =>
      rw [deliverBoundary]
      refine agree_inHopping i fun u => ?_
      exact ChannelHopping.agree_onSlotBoundary_akin ChannelHopping.likeness_eq
        (matching_hoppingNeeds hx hy u) _
    | selection i =>
      rw [deliverBoundary]
      refine agree_inSelection i fun u => ?_
      exact SlotSelection.agree_onSlotBoundaryBy (matching_selectionNeeds hx hy u) _
    | recording serial name overhears => exact agree_record x y _
  outcome k slot channel success := by
    dsimp only [surroundings]
    cases k with
    | hopping i =>
      rw [deliverOutcome]
      refine agree_inHopping i fun u => ?_
      exact ChannelHopping.agree_recordOutcome_akin ChannelHopping.likeness_eq
        (agree_note_congruent hx hy) _ _ _
    | selection i =>
      rw [deliverOutcome]
      refine agree_inSelection i fun u => ?_
      exact SlotSelection.agree_onTransmissionOutcome (agree_note_congruent hx hy) _ _
    | recording serial name overhears => exact agree_record x y _
  overheard k slot := by
    dsimp only [surroundings]
    cases k with
    | hopping i => exact agree_pure rfl
    | selection i =>
      rw [deliverOverheard]
      refine agree_inSelection i fun u => ?_
      exact SlotSelection.agree_onOverheardActivity _
    | recording serial name overhears =>
      cases overhears with
      | true => exact agree_record x y _
      | false => exact agree_pure rfl
  observe o r := by
    cases o with
    | statistics i => exact (alike_statistics x y).agree_update i _
    | recorder serial name => exact agree_record x y _
  note := agree_note_congruent hx hy

end Slots

end TschLearning.Testbed
