import TschLearning.Proofs.Action.Agree
import TschLearning.Proofs.Scheduler.Steps

/-! Channel schedulers in two surroundings that answer alike, where what relates the surroundings
may depend on the configuration in use. Whatever a scheduler is called for, it ends or fails in the
same way in both, and the relation holds again afterwards, of the configuration that is in use
then. -/

namespace TschLearning

namespace ChannelHopping

open TschLearning.Action

variable {σ τ κ α : Type} [Journal σ] [Journal τ]

/-- Deployments, draws and notes come out alike. `Held` relates the surroundings while a
configuration is in use, which is one of those that `Ok` admits. -/
structure Needs.Alike (slots channels : Nat) (Ok : List Int → Prop)
    (Held : List Datum → σ → τ → Prop) (needs : Needs σ α) (needs' : Needs τ α) : Prop where
  channels_pos : 0 < channels
  admits : ∀ cs : List Int, cs.length = slots → (∀ c ∈ cs, 0 ≤ c ∧ c < channels) → Ok cs
  in_use : ∀ {configuration s t}, Held configuration s t →
    ∃ cs, configuration = Datum.ofInts cs ∧ cs.length = slots ∧ Ok cs
  deploy : ∀ {cs configuration s t}, cs.length = slots → Ok cs → Held configuration s t →
    match needs.deploy (Datum.ofInts cs) s, needs'.deploy (Datum.ofInts cs) t with
    | .ok a s', .ok b t' => a = b ∧ Held (if a then Datum.ofInts cs else configuration) s' t'
    | .error f s', .error g t' => f = g ∧ Held configuration s' t'
    | _, _ => False
  uniform : ∀ configuration,
    Agree (Held configuration) Eq needs.draws.uniform needs'.draws.uniform
  below : ∀ configuration,
    Agree (Held configuration) (fun i j : Int => i = j ∧ 0 ≤ i ∧ i < channels)
      (needs.draws.below channels) (needs'.draws.below channels)
  note : ∀ {configuration s t} (n : Note), Held configuration s t →
    Journal.obstacle? n s = Journal.obstacle? n t ∧
      Held configuration (Journal.enter n s) (Journal.enter n t)

/-- The scheduler has tables of a size, and its surroundings are related as its configuration
asks for. -/
def Using (slots channels : Nat) (Held : List Datum → σ → τ → Prop) (c : ChannelHopping α) (s : σ)
    (t : τ) : Prop :=
  c.table.slots = slots ∧ c.table.channels = channels ∧ Held c.configuration s t

variable {slots channels : Nat} {Ok : List Int → Prop} {Held : List Datum → σ → τ → Prop}
  {needs : Needs σ α} {needs' : Needs τ α} (h : Needs.Alike slots channels Ok Held needs needs')

include h

omit h [Journal σ] [Journal τ] in
/-- What the surroundings do on their own leaves the scheduler as it is. -/
theorem agree_outside_using {β γ : Type} {P : β → γ → Prop} {x : Action σ β} {y : Action τ γ}
    (hxy : ∀ configuration, Agree (Held configuration) P x y) :
    Agree (Around (Using (α := α) slots channels Held)) P x.outside y.outside := by
  apply Agree.outside_around
  rintro c s t ⟨hs, hc, hst⟩
  have hd := hxy c.configuration s t hst
  split at hd
  · exact ⟨hd.1, hs, hc, hd.2⟩
  · exact ⟨hd.1, hs, hc, hd.2⟩
  · exact hd.elim

theorem Needs.Alike.agree_note (view : κ → ChannelHopping α) (n : Note) :
    Agree (Around fun k => Using slots channels Held (view k)) Eq (Action.note n)
      (Action.note n) := by
  apply Action.agree_note
  rintro ⟨k, s⟩ ⟨_, t⟩ ⟨rfl, hs, hc, hst⟩
  obtain ⟨ho, he⟩ := h.note n hst
  exact ⟨ho, rfl, hs, hc, he⟩

theorem agree_remark (r : Remark) :
    Agree (Around (Using (α := α) slots channels Held)) Eq (remark r) (remark r) := by
  unfold remark
  apply agree_part_around.bind
  rintro c _ ⟨rfl, -⟩
  exact h.agree_note id _

theorem agree_settle :
    Agree (Around (Using (α := α) slots channels Held)) Eq settle settle := by
  have hpassed : ∀ (c : ChannelHopping α) who,
      Agree (Around fun a => Using slots channels Held { c with activation := a }) Eq
        (Settling.epochPassed fun _ => who) (Settling.epochPassed fun _ => who) := by
    intro c who
    have hnote := fun n => h.agree_note (fun a => { c with activation := a }) n
    unfold Settling.epochPassed
    apply agree_part_around.bind
    rintro a _ ⟨rfl, -⟩
    split
    · exact agree_pure rfl
    refine Agree.bind (agree_change_around fun _ _ _ hst => ?_) fun _ _ _ => ?_
    · exact hst
    apply agree_part_around.bind
    rintro a _ ⟨rfl, -⟩
    apply (hnote _).bind
    intro _ _ _
    split
    · exact agree_pure rfl
    refine Agree.bind (agree_change_around fun _ _ _ hst => ?_) fun _ _ _ => ?_
    · exact hst
    apply agree_part_around.bind
    rintro a _ ⟨rfl, -⟩
    apply (hnote _).bind
    intro _ _ _
    exact agree_pure rfl
  unfold settle
  apply agree_part_around.bind
  rintro c _ ⟨rfl, -⟩
  apply (Agree.within_around (fun _ => rfl) fun d => hpassed d c.label).bind
  intro _ _ _
  exact agree_pure rfl

theorem agree_recordOutcome (slot channel : Datum) (success : Bool) :
    Agree (Around (Using (α := α) slots channels Held)) Eq (recordOutcome slot channel success)
      (recordOutcome slot channel success) := by
  unfold recordOutcome
  apply agree_part_around.bind
  rintro c _ ⟨rfl, -⟩
  apply (agree_ofExcept _).bind
  rintro s _ rfl
  apply (agree_ofExcept _).bind
  rintro ch _ rfl
  refine Agree.bind (agree_change_around fun _ _ _ hst => ?_) fun _ _ _ => ?_
  · exact hst
  split
  · exact agree_remark h _
  apply (agree_remark h _).bind
  intro _ _ _
  apply (agree_ofExcept _).bind
  rintro outcomes _ rfl
  exact agree_change_around fun _ _ _ hst => hst

/-- A deployment changes the configuration in use if it is accepted. -/
theorem agree_deployConfiguration {cs : List Int} (hok : cs.length = slots → Ok cs) :
    Agree (Around (Using (α := α) slots channels Held)) Eq
      (deployConfiguration needs (Datum.ofInts cs))
      (deployConfiguration needs' (Datum.ofInts cs)) := by
  rintro ⟨c, s⟩ ⟨_, t⟩ ⟨rfl, hs, hc, hst⟩
  have hlength : (Datum.ofInts cs).length = cs.length := List.length_map _
  by_cases hlen : cs.length = slots
  · have hguard : ¬(Datum.ofInts cs).length ≠ c.table.slots := by
      rw [hlength, hlen, hs]
      exact fun hne => hne rfl
    have hd := h.deploy hlen (hok hlen) hst
    simp only [deployConfiguration, bind, EStateM.bind, part, if_neg hguard, Action.outside]
    split at hd
    · rename_i a s' b t' hx hy
      obtain ⟨rfl, hd⟩ := hd
      simp only [hx, hy]
      cases a with
      | true =>
        have hrest := (agree_remark h (.configurationDeployed (Datum.ofInts cs))).bind
          fun _ _ _ => agree_pure (P := Eq) (rfl : true = true)
        exact hrest ({ c with configuration := _, deployed := true }, s')
          ({ c with configuration := _, deployed := true }, t') ⟨rfl, hs, hc, hd⟩
      | false =>
        have hrest := (agree_remark h (.configurationKept c.configuration)).bind
          fun _ _ _ => agree_pure (P := Eq) (rfl : false = false)
        exact hrest (c, s') (c, t') ⟨rfl, hs, hc, hd⟩
    · rename_i f s' g t' hx hy
      simp only [hx, hy]
      exact ⟨hd.1, rfl, hs, hc, hd.2⟩
    · exact hd.elim
  · have hguard : (Datum.ofInts cs).length ≠ c.table.slots := by rwa [hlength, hs]
    simp only [deployConfiguration, bind, EStateM.bind, part, if_pos hguard]
    exact ⟨rfl, rfl, hs, hc, hst⟩

variable [Arith α]

/-- A choice draws from the channels of the table. -/
theorem agree_chooseAction (slot : Datum) :
    Agree (Around (Using (α := α) slots channels Held))
      (fun i j : Int => i = j ∧ 0 ≤ i ∧ i < channels)
      (chooseAction needs slot) (chooseAction needs' slot) := by
  have hexplores : ∀ epsilon mayExplore, Agree (Around (Using (α := α) slots channels Held)) Eq
      (Selection.explores needs.draws.outside epsilon mayExplore)
      (Selection.explores needs'.draws.outside epsilon mayExplore) := by
    intro epsilon mayExplore
    cases mayExplore with
    | false => exact agree_pure rfl
    | true =>
      apply (agree_outside_using h.uniform).bind
      rintro u _ rfl
      exact agree_pure rfl
  unfold chooseAction Selection.chooseChannel
  apply agree_part_around.bind
  rintro c _ ⟨rfl, s, t, hs, hc, hst⟩
  apply (agree_ofExcept _).bind
  rintro slot _ rfl
  apply (hexplores _ _).bind
  rintro explored _ rfl
  split
  · rw [hc]
    apply (agree_outside_using h.below).bind
    rintro i _ ⟨rfl, hi⟩
    apply (h.agree_note id _).bind
    intro _ _ _
    exact agree_pure ⟨rfl, hi⟩
  · apply (h.agree_note id _).bind
    intro _ _ _
    have hbest := c.table.bestIn_lt slot (by rw [hc]; exact h.channels_pos)
    rw [hc] at hbest
    exact agree_pure ⟨rfl, Int.natCast_nonneg _, Int.ofNat_lt.2 hbest⟩

/-- A policy has a channel of the table for every slot. -/
theorem agree_computePolicy :
    Agree (Around (Using (α := α) slots channels Held))
      (fun cs cs' : List Int => cs = cs' ∧ cs.length = slots ∧ ∀ c ∈ cs, 0 ≤ c ∧ c < channels)
      (computePolicy needs) (computePolicy needs') := by
  have heach : ∀ todo : List Nat, Agree (Around (Using (α := α) slots channels Held))
      (fun cs cs' : List Int => cs = cs' ∧ cs.length = todo.length ∧ ∀ c ∈ cs, 0 ≤ c ∧ c < channels)
      (chooseEach needs todo) (chooseEach needs' todo) := by
    intro todo
    induction todo with
    | nil => exact agree_pure ⟨rfl, rfl, by simp⟩
    | cons slot todo ih =>
      unfold chooseEach
      apply (agree_chooseAction h _).bind
      rintro c _ ⟨rfl, hc⟩
      apply ih.bind
      rintro cs _ ⟨rfl, hlen, hcs⟩
      exact agree_pure ⟨rfl, by simp [hlen], List.forall_mem_cons.2 ⟨hc, hcs⟩⟩
  unfold computePolicy
  apply agree_part_around.bind
  rintro c _ ⟨rfl, s, t, hs, -⟩
  apply (heach _).mono
  rintro cs _ ⟨rfl, hlen, hcs⟩
  rw [List.length_range, hs] at hlen
  exact ⟨rfl, hlen, hcs⟩

theorem agree_deployPolicy :
    Agree (Around (Using (α := α) slots channels Held)) Eq (deployPolicy needs)
      (deployPolicy needs') := by
  unfold deployPolicy
  apply (agree_computePolicy h).bind
  rintro cs _ ⟨rfl, hlen, hcs⟩
  exact agree_deployConfiguration h fun _ => h.admits cs hlen hcs

/-- Learning changes the values of the table and nothing else. -/
theorem agree_learn :
    Agree (Around (Using (α := α) slots channels Held)) Eq learn learn := by
  unfold learn
  apply agree_part_around.bind
  rintro c _ ⟨rfl, -⟩
  split
  · exact agree_remark h _
  apply Agree.within_around fun _ => rfl
  intro d
  unfold Lookahead.apply
  apply agree_part_around.bind
  rintro table _ ⟨rfl, -⟩
  apply Agree.bind (P := Eq)
  · apply agree_forM
    intro r
    refine Agree.bind (agree_change_around fun table s t hst => ?_) fun _ _ _ => ?_
    · obtain ⟨hs, hc, hst⟩ := hst
      exact ⟨by simpa [Reward.enter] using hs, by simpa [Reward.enter] using hc, hst⟩
    · exact h.agree_note (fun table => { d with table }) _
  · intro _ _ _
    split
    · exact agree_throw _
    · exact agree_pure rfl

theorem agree_updateEpoch :
    Agree (Around (Using (α := α) slots channels Held)) Eq (updateEpoch needs)
      (updateEpoch needs') := by
  unfold updateEpoch
  refine Agree.bind (agree_change_around fun _ _ _ hst => ?_) fun _ _ _ => ?_
  · exact hst
  apply agree_part_around.bind
  rintro c _ ⟨rfl, -⟩
  dsimp only
  apply Agree.first (agree_learn h)
  refine Agree.bind (agree_change_around fun _ _ _ hst => ?_) fun _ _ _ => ?_
  · exact hst
  apply (agree_deployPolicy h).bind
  intro _ _ _
  split
  · exact agree_settle h
  · exact agree_pure rfl

theorem agree_onSlotBoundary (asn : Datum) :
    Agree (Around (Using (α := α) slots channels Held)) Eq (onSlotBoundary needs asn)
      (onSlotBoundary needs' asn) := by
  unfold onSlotBoundary
  apply (agree_ofExcept _).bind
  rintro asn _ rfl
  apply agree_part_around.bind
  rintro c _ ⟨rfl, s, t, -, -, hst⟩
  obtain ⟨cs, hcs, hlen, hok⟩ := h.in_use hst
  have hclose : Agree (Around (Using (α := α) slots channels Held)) Eq
      (if 0 < asn ∧ asn % c.table.slots = 0 then updateEpoch needs else pure ())
      (if 0 < asn ∧ asn % c.table.slots = 0 then updateEpoch needs' else pure ()) := by
    split
    · exact agree_updateEpoch h
    · exact agree_pure rfl
  cases hasn : c.asn with
  | none =>
    refine Agree.bind (agree_change_around fun _ _ _ hst => ?_) fun _ _ _ => ?_
    · exact hst
    rw [hcs]
    exact (agree_deployConfiguration h fun _ => hok).bind fun _ _ _ => hclose
  | some last =>
    dsimp only
    split
    · exact (agree_throw (P := fun _ _ => False) _).bind fun _ _ hno => hno.elim
    refine Agree.bind (agree_change_around fun _ _ _ hst => ?_) fun _ _ _ => ?_
    · exact hst
    exact hclose

end ChannelHopping
end TschLearning
