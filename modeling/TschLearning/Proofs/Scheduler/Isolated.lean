import TschLearning.Proofs.Scheduler.Dormant
import Mathlib.Data.List.Induction

/-! Runs of a channel scheduler up to the slotframe whose closing opens its gate. Such a run teaches
nothing, draws nothing and deploys the same whatever outcomes come in; and since nothing of the
outcomes is kept but how many there were, what follows does not depend on them either. -/

namespace TschLearning

open TschLearning.Action

/-! ### Calls with the same boundaries -/

namespace Signal

def boundary? : Signal → Option Datum
  | .boundary x => some x
  | .outcome .. => none

theorem boundaries_concat_outcome (past : List Signal) (slot channel : Datum) (success : Bool) :
    (past ++ [outcome slot channel success]).filterMap boundary? = past.filterMap boundary? := by
  rw [List.filterMap_append, List.filterMap_cons_none rfl, List.filterMap_nil, List.append_nil]

theorem boundaries_concat_boundary (past : List Signal) (x : Datum) :
    (past ++ [boundary x]).filterMap boundary? = past.filterMap boundary? ++ [x] := by
  have hlast : boundary? (boundary x) = some x := rfl
  rw [List.filterMap_append, List.filterMap_cons_some hlast, List.filterMap_nil]

/-- Calls that announce the same slots, whatever outcomes come between. -/
inductive SameBoundaries : List Signal → List Signal → Prop
  | nil : SameBoundaries [] []
  | left {past past' : List Signal} (slot channel : Datum) (success : Bool) :
    SameBoundaries past past' → SameBoundaries (past ++ [.outcome slot channel success]) past'
  | right {past past' : List Signal} (slot channel : Datum) (success : Bool) :
    SameBoundaries past past' → SameBoundaries past (past' ++ [.outcome slot channel success])
  | boundary {past past' : List Signal} (x : Datum) :
    SameBoundaries past past' → SameBoundaries (past ++ [.boundary x]) (past' ++ [.boundary x])

theorem sameBoundaries_of_filterMap_eq {calls calls' : List Signal}
    (h : calls.filterMap boundary? = calls'.filterMap boundary?) : SameBoundaries calls calls' := by
  induction calls using List.reverseRecOn generalizing calls' with
  | nil =>
    induction calls' using List.reverseRecOn with
    | nil => exact .nil
    | append_singleton past' call' ih =>
      cases call' with
      | outcome slot channel success =>
        rw [boundaries_concat_outcome] at h
        exact .right _ _ _ (ih h)
      | boundary x =>
        rw [boundaries_concat_boundary] at h
        exact absurd h.symm (List.append_ne_nil_of_right_ne_nil _ (List.cons_ne_nil _ _))
  | append_singleton past call ih =>
    cases call with
    | outcome slot channel success =>
      rw [boundaries_concat_outcome] at h
      exact .left _ _ _ (ih h)
    | boundary x =>
      induction calls' using List.reverseRecOn with
      | nil =>
        rw [boundaries_concat_boundary] at h
        exact absurd h (List.append_ne_nil_of_right_ne_nil _ (List.cons_ne_nil _ _))
      | append_singleton past' call' ih' =>
        cases call' with
        | outcome slot channel success =>
          rw [boundaries_concat_outcome past'] at h
          exact .right _ _ _ (ih' h)
        | boundary y =>
          rw [boundaries_concat_boundary, boundaries_concat_boundary] at h
          obtain ⟨hpast, hlast⟩ := List.append_inj' h rfl
          cases hlast
          exact .boundary x (ih hpast)

theorem SameBoundaries.accepted_eq {calls calls' : List Signal} (h : SameBoundaries calls calls') :
    accepted calls = accepted calls' := by
  induction h with
  | nil => rfl
  | left slot channel success _ ih => rw [accepted_concat, ← ih]; rfl
  | right slot channel success _ ih => rw [accepted_concat, ih]; rfl
  | boundary x _ ih => rw [accepted_concat, accepted_concat, ih]

/-- Fewer slotframes than the threshold says were closed before the last of the calls. -/
def Early (slots threshold : Nat) (calls : List Signal) : Prop :=
  (accepted calls.dropLast).countP (ChannelHopping.Closes slots ·) < threshold

instance (slots threshold : Nat) (calls : List Signal) : Decidable (Early slots threshold calls) :=
  inferInstanceAs (Decidable (_ < _))

theorem early_concat {slots threshold : Nat} {past : List Signal} {call : Signal} :
    Early slots threshold (past ++ [call]) ↔
      (accepted past).countP (ChannelHopping.Closes slots ·) < threshold := by
  unfold Early
  rw [List.dropLast_concat]

/-- No fewer slotframes are closed once a further call was made. -/
theorem early_of_countP_accepted_lt {slots threshold : Nat} {past : List Signal}
    (h : (accepted past).countP (ChannelHopping.Closes slots ·) < threshold) :
    Early slots threshold past := by
  rcases past.eq_nil_or_concat with rfl | ⟨past, call, rfl⟩
  · exact h
  · rw [List.concat_eq_append, early_concat]
    rw [List.concat_eq_append, accepted_concat] at h
    refine Nat.lt_of_le_of_lt ?_ h
    cases call with
    | boundary x => exact (List.sublist_append_left _ _).countP_le
    | outcome slot channel success => exact Nat.le_refl _

end Signal

/-- A further operation behind some others. -/
theorem Action.attemptEach_concat {σ ι β : Type} {x : ι → Action σ β} {past : List ι} {i : ι}
    {s t u : σ} {outcomes : List (Except Fault β)} {outcome : Except Fault β}
    (hpast : attemptEach x past s = .ok outcomes t) (hi : attempt (x i) t = .ok outcome u) :
    attemptEach x (past ++ [i]) s = .ok (outcomes ++ [outcome]) u := by
  induction past generalizing s outcomes with
  | nil =>
    cases hpast
    simp only [List.nil_append, attemptEach, bind, EStateM.bind, hi]
    rfl
  | cons j past ih =>
    simp only [attemptEach, bind, EStateM.bind] at hpast
    split at hpast
    · rename_i first v hj
      split at hpast
      · rename_i rest w hrest
        cases hpast
        simp only [List.cons_append, attemptEach, bind, EStateM.bind, hj, ih hrest]
        rfl
      · cases hpast
    · cases hpast

theorem Action.settles_true {σ β : Type} (x : Action σ β) (s : σ) :
    Settles x s fun _ _ => True := by
  unfold Settles
  cases x s <;> trivial

/-- Whatever comes of each operation, all of them are carried out. -/
theorem Action.ends_attemptEach_true {σ ι β : Type} (x : ι → Action σ β) (items : List ι) (s : σ) :
    Ends (attemptEach x items) s fun _ _ => True := by
  induction items generalizing s with
  | nil => trivial
  | cons i rest ih =>
    unfold attemptEach
    simp only [ends_bind, ends_attempt, ends_pure]
    exact (settles_true (x i) s).mono fun _ t _ => ih t

namespace ChannelHopping

variable {σ τ α : Type} {slots channels threshold : Nat} {cs : List Int} {taken : List Nat}
  {made : List Deployment} {c : ChannelHopping α}

/-! ### Before the gate opens -/

theorem OnTime.active_eq_false [Arith α] (h : OnTime slots channels threshold taken made c)
    (hearly : taken.countP (Closes slots ·) < threshold) : c.active = false := by
  show c.activation.active = false
  rw [h.activation_eq, h.epochs_eq]
  exact decide_eq_false (Nat.not_le.2 hearly)

/-- A scheduler on time that has learned nothing. It has deployed the configuration that it began
with, and the first channel for every slot ever since. -/
structure Asleep [Arith α] (slots channels threshold : Nat) (cs : List Int) (taken : List Nat)
    (made : List Deployment) (c : ChannelHopping α) : Prop where
  onTime : OnTime slots channels threshold taken made c
  blank : Blank slots channels c
  configuration_eq : taken = [] → c.configuration = Datum.ofInts cs
  configurations_eq : made.map Deployment.configuration =
    if taken = [] then []
    else Datum.ofInts cs :: List.replicate (taken.countP (Closes slots ·)) (lowest slots)

variable [Arith α]

theorem Asleep.recounted (h : Asleep slots channels threshold cs taken made c) (m n : Nat) :
    Asleep slots channels threshold cs taken made (c.recounted m n) where
  onTime := { h.onTime with valid := { h.onTime.valid with } }
  blank := h.blank.recounted m n
  configuration_eq := h.configuration_eq
  configurations_eq := h.configurations_eq

theorem Asleep.reached (h : Asleep slots channels threshold cs taken made c)
    (hsettling : c.active = false) {asn : Nat} {first policy : List Deployment}
    (hd : Handed slots channels c asn first policy)
    (hlowest : ∀ d ∈ policy, d.configuration = lowest slots) :
    Asleep slots channels threshold cs (taken ++ [asn]) (made ++ first ++ policy)
      (c.reached asn first policy) where
  onTime := h.onTime.reached hd
  blank := h.blank.reached hsettling hd
  configuration_eq hnil := absurd hnil (List.append_ne_nil_of_right_ne_nil _ (List.cons_ne_nil _ _))
  configurations_eq := by
    have hbegun : (made ++ first).map Deployment.configuration =
        Datum.ofInts cs :: List.replicate (taken.countP (Closes slots ·)) (lowest slots) := by
      have hfirst := hd.first_eq
      rw [h.onTime.asn_eq] at hfirst
      rw [List.map_append, h.configurations_eq]
      by_cases hnone : taken = []
      · subst hnone
        obtain ⟨answer, rfl⟩ := hfirst
        simp [h.configuration_eq rfl]
      · obtain ⟨l, hl⟩ := Option.isSome_iff_exists.1 (List.getLast?_isSome.2 hnone)
        rw [hl] at hfirst
        obtain rfl : first = [] := hfirst
        rw [if_neg hnone, List.map_nil, List.append_nil]
    have hclosed : policy.map Deployment.configuration =
        List.replicate ([asn].countP (Closes slots ·)) (lowest slots) := by
      have hpolicy := hd.policy_eq
      by_cases hcloses : Closes slots asn
      · rw [if_pos hcloses] at hpolicy
        obtain ⟨d, rfl, -⟩ := hpolicy
        simp [hcloses, hlowest d List.mem_cons_self]
      · rw [if_neg hcloses] at hpolicy
        subst hpolicy
        simp [hcloses]
    rw [if_neg (List.append_ne_nil_of_right_ne_nil _ (List.cons_ne_nil _ _)), List.map_append,
      hbegun, hclosed, List.countP_append, List.replicate_add, List.cons_append]

variable [Journal σ] [Journal τ] {needs : Needs σ α}

theorem Asleep.settles_hear (hneeds : needs.Proper channels)
    (h : Asleep slots channels threshold cs taken made c)
    (hearly : taken.countP (Closes slots ·) < threshold) (call : Signal) (s : σ) :
    Settles (hear needs.tracing call) (c, made.map Effect.deployed, s) fun _ p =>
      ∃ made', p.2.1 = made'.map Effect.deployed ∧
        Asleep slots channels threshold cs (call.heard taken) made' p.1 := by
  have hsettling := h.onTime.active_eq_false hearly
  cases call with
  | outcome slot channel success =>
    refine (settles_recordOutcome (s := (made.map Effect.deployed, s)) hsettling
      (fun n => hneeds.obstacle?_eq_none n s) slot channel success).mono ?_
    rintro _ ⟨_, p⟩ ⟨⟨m, n, rfl⟩, rfl | ⟨note, rfl⟩⟩
    · exact ⟨made, rfl, h.recounted m n⟩
    · exact ⟨made, rfl, h.recounted m n⟩
  | boundary x =>
    show Settles (onSlotBoundary needs.tracing x) (c, made.map Effect.deployed, s) fun _ p =>
      ∃ made', p.2.1 = made'.map Effect.deployed ∧ Asleep slots channels threshold cs
        (taken ++ (Signal.later? taken.getLast? x).toList) made' p.1
    rw [← h.onTime.asn_eq]
    cases hx : Signal.later? c.asn x with
    | none =>
      unfold Settles
      rw [onSlotBoundary_of_later?_eq_none _ hx]
      exact ⟨made, rfl, by simpa using h⟩
    | some asn =>
      obtain ⟨rfl, hlater⟩ := Signal.later?_eq_some hx
      refine settles_of_ends ((hneeds.ends_onSlotBoundary h.onTime.valid h.blank hsettling
        hlater).mono ?_)
      rintro _ _ ⟨first, policy, t, hd, hlowest, rfl⟩
      exact ⟨made ++ first ++ policy, by simp, h.reached hsettling hd hlowest⟩

/-- Any number of calls up to the closing that opens the gate. -/
theorem Asleep.ends_attemptEach (hneeds : needs.Proper channels)
    (h : Asleep slots channels threshold cs [] [] c) {calls : List Signal}
    (hearly : Signal.Early slots threshold calls) (s : σ) :
    Ends (attemptEach (hear needs.tracing) calls) (c, [], s) fun _ p =>
      ∃ made, p.2.1 = made.map Effect.deployed ∧
        Asleep slots channels threshold cs (Signal.accepted calls) made p.1 := by
  have hrun : Ends (attemptEach (hear needs.tracing) calls) (c, [], s) fun _ p =>
      Signal.Early slots threshold ([] ++ calls) → ∃ made, p.2.1 = made.map Effect.deployed ∧
        Asleep slots channels threshold cs (Signal.accepted ([] ++ calls)) made p.1 := by
    refine Action.ends_attemptEach (I := fun past (p : ChannelHopping α × List (Effect α) × σ) =>
      Signal.Early slots threshold past → ∃ made, p.2.1 = made.map Effect.deployed ∧
        Asleep slots channels threshold cs (Signal.accepted past) made p.1) ?_ ?_
    · rintro past call - ⟨c', log, s'⟩ hp
      rw [Signal.early_concat, Signal.accepted_concat]
      by_cases hcount : (Signal.accepted past).countP (Closes slots ·) < threshold
      · obtain ⟨made', hlog, hasleep⟩ := hp (Signal.early_of_countP_accepted_lt hcount)
        obtain rfl : log = made'.map Effect.deployed := hlog
        exact (hasleep.settles_hear hneeds hcount call s').mono fun _ _ hq _ => hq
      · exact (settles_true _ _).mono fun _ _ _ hlt => absurd hlt hcount
    · exact fun _ => ⟨[], rfl, h⟩
  exact hrun.mono fun _ _ hp => hp hearly

/-! ### Two runs with the same boundaries -/

variable {needs' : Needs τ α} {Held : σ → τ → Prop} {calls calls' : List Signal} {s : σ} {t : τ}

/-- An outcome in the first of two runs, before the gate opens. -/
theorem Kindred.outcome_left (halike : needs.Heedless channels Held needs')
    {p : ChannelHopping α × List (Effect α) × σ} {q : ChannelHopping α × List (Effect α) × τ}
    (h : Kindred slots channels Held p q) (hsettling : p.1.active = false) (slot channel : Datum)
    (success : Bool) : ∃ outcome p',
      attempt (hear needs.tracing (.outcome slot channel success)) p = .ok outcome p' ∧
        Kindred slots channels Held p' q := by
  obtain ⟨b, log, s⟩ := p
  obtain ⟨⟨m, n, hcounts⟩, hlog, hst, hsize⟩ := kindred_iff.1 h
  obtain ⟨outcome, ⟨b', u⟩, hcall, ⟨m', n', rfl⟩, hu⟩ :=
    settles_iff.1 (settles_recordOutcome (s := (log, s)) hsettling
      (fun note => (halike.left hst note).1) slot channel success)
  refine ⟨outcome, _, hcall, kindred_iff.2 ⟨⟨m, n, hcounts⟩, ?_⟩⟩
  obtain rfl | ⟨note, rfl⟩ := hu
  · exact ⟨hlog, hst, hsize⟩
  · exact ⟨hlog, (halike.left hst note).2, hsize⟩

theorem Kindred.outcome_right (halike : needs.Heedless channels Held needs')
    {p : ChannelHopping α × List (Effect α) × σ} {q : ChannelHopping α × List (Effect α) × τ}
    (h : Kindred slots channels Held p q) (hsettling : p.1.active = false) (slot channel : Datum)
    (success : Bool) : ∃ outcome q',
      attempt (hear needs'.tracing (.outcome slot channel success)) q = .ok outcome q' ∧
        Kindred slots channels Held p q' := by
  obtain ⟨d, log, t⟩ := q
  obtain ⟨⟨m, n, rfl⟩, hlog, hst, hsize⟩ := kindred_iff.1 h
  obtain ⟨outcome, ⟨d', u⟩, hcall, ⟨m', n', rfl⟩, hu⟩ :=
    settles_iff.1 (settles_recordOutcome (c := p.1.recounted m n) (s := (log, t)) hsettling
      (fun note => (halike.right hst note).1) slot channel success)
  refine ⟨outcome, _, hcall, kindred_iff.2 ⟨⟨m', n', rfl⟩, ?_⟩⟩
  obtain rfl | ⟨note, rfl⟩ := hu
  · exact ⟨hlog, hst, hsize⟩
  · exact ⟨hlog, (halike.right hst note).2, hsize⟩

/-- Up to the closing that opens the gate, outcomes make no difference but in the counts. -/
theorem Asleep.kindred (hneeds : needs.Proper channels)
    (halike : needs.Heedless channels Held needs')
    (h : Asleep slots channels threshold cs [] [] c) (hst : Held s t)
    (hsame : Signal.SameBoundaries calls calls') (hearly : Signal.Early slots threshold calls)
    (hearly' : Signal.Early slots threshold calls') :
    ∃ outcomes p outcomes' q,
      attemptEach (hear needs.tracing) calls (c, [], s) = .ok outcomes p ∧
      attemptEach (hear needs'.tracing) calls' (c, [], t) = .ok outcomes' q ∧
      Kindred slots channels Held p q := by
  -- the scheduler of the first run has its gate closed while fewer slotframes were closed
  have hclosed : ∀ {past outcomes p}, (Signal.accepted past).countP (Closes slots ·) < threshold →
      attemptEach (hear needs.tracing) past (c, [], s) = .ok outcomes p → p.1.active = false := by
    intro past outcomes p hcount hrun
    have hends := h.ends_attemptEach hneeds (Signal.early_of_countP_accepted_lt hcount) s
    obtain ⟨_, _, hrun', _, -, hasleep⟩ := ends_iff.1 hends
    cases hrun.symm.trans hrun'
    exact hasleep.onTime.active_eq_false hcount
  induction hsame with
  | nil =>
    refine ⟨[], _, [], _, rfl, rfl, kindred_iff.2 ⟨⟨_, _, rfl⟩, rfl, hst, ?_⟩⟩
    exact ⟨h.onTime.valid.slots_table, h.onTime.valid.channels_table, h.onTime.valid.configured⟩
  | @left past past' slot channel success _ ih =>
    have hcount := Signal.early_concat.1 hearly
    obtain ⟨outcomes, p, outcomes', q, hrun, hrun', hpq⟩ :=
      ih (Signal.early_of_countP_accepted_lt hcount) hearly'
    obtain ⟨_, p', hcall, hpq'⟩ :=
      hpq.outcome_left halike (hclosed hcount hrun) slot channel success
    exact ⟨_, p', outcomes', q, attemptEach_concat hrun hcall, hrun', hpq'⟩
  | @right past past' slot channel success hsame ih =>
    have hcount := Signal.early_concat.1 hearly'
    obtain ⟨outcomes, p, outcomes', q, hrun, hrun', hpq⟩ :=
      ih hearly (Signal.early_of_countP_accepted_lt hcount)
    rw [← hsame.accepted_eq] at hcount
    obtain ⟨_, q', hcall, hpq'⟩ :=
      hpq.outcome_right halike (hclosed hcount hrun) slot channel success
    exact ⟨outcomes, p, _, q', hrun, attemptEach_concat hrun' hcall, hpq'⟩
  | @boundary past past' x hsame ih =>
    obtain ⟨outcomes, p, outcomes', q, hrun, hrun', hpq⟩ :=
      ih (Signal.early_of_countP_accepted_lt (Signal.early_concat.1 hearly))
        (Signal.early_of_countP_accepted_lt (Signal.early_concat.1 hearly'))
    have hcall := halike.agree_hear slots h.onTime.valid.channels_pos (.boundary x)
    have hends := ends_attempt.2 (settles_true (hear needs.tracing (.boundary x)) p)
    obtain ⟨_, q', hy, outcome, p', hx, -, -, hpq'⟩ := ends_iff.1 (hcall.attempt.ends hpq hends)
    exact ⟨_, p', _, q', attemptEach_concat hrun hx, attemptEach_concat hrun' hy, hpq'⟩

/-! ### The whole of it -/

theorem asleep_fresh {params : Parameters α} (name : Datum) (voice : Voice)
    (hfits : Fits slots channels) (hprudent : params.exploreWhileSettling = false)
    (hlen : cs.length = slots) (hcs : ∀ i ∈ cs, 0 ≤ i ∧ i < channels) :
    Asleep slots channels params.deactivationThreshold cs [] []
      ((fresh params name voice slots channels).startingWith cs) where
  onTime := {
    valid := (follows_fresh hfits hlen hcs).valid
    asn_eq := rfl
    epochs_eq := rfl
    activation_eq := (Activation.behind_zero params.deactivationThreshold).symm
    deployments := rfl }
  blank := {
    table_eq := rfl
    outcomes_eq := rfl
    prudent := hprudent }
  configuration_eq _ := rfl
  configurations_eq := rfl

/-- While a channel scheduler that does not explore then settles, up to the closing that opens its
gate, it keeps a table of zeros and an empty record of outcomes, whatever it is called for. It
draws nothing; what it deploys is the configuration that it began with, and the first channel for
every slot whenever a slotframe is closed. Another run in surroundings that answer alike, with the
same boundaries but other outcomes, has had the same effects by then. Whatever both are called for
afterwards, it comes to the same in both, with the same deployments and draws, and the schedulers
never differ but in how many transmissions they have counted. -/
theorem settling_leaves_no_trace {params : Parameters α} {name : Datum} {voice : Voice}
    (hcreate : create params name voice (.int slots) (.int channels) = .ok c)
    (hprudent : params.exploreWhileSettling = false) (hlen : cs.length = slots)
    (hcs : ∀ i ∈ cs, 0 ≤ i ∧ i < channels) (hneeds : needs.Proper channels)
    (hearly : Signal.Early slots params.deactivationThreshold calls) (s : σ) :
    ∃ outcomes c₁, ∃ made : List Deployment, ∃ s₁,
      attemptEach (hear needs) calls (c.startingWith cs, s) = .ok outcomes (c₁, s₁) ∧
      attemptEach (hear needs.tracing) calls (c.startingWith cs, [], s)
        = .ok outcomes (c₁, made.map .deployed, s₁) ∧
      c₁.table = Grid.empty slots channels 0 ∧ c₁.outcomes = Grid.empty slots channels false ∧
      made.map Deployment.configuration =
        (if Signal.accepted calls = [] then []
        else Datum.ofInts cs :: List.replicate ((Signal.accepted calls).countP (Closes slots ·))
          (Datum.ofInts (List.replicate slots 0))) ∧
      ∀ {τ : Type} [Journal τ] {needs' : Needs τ α} {Held : σ → τ → Prop},
        needs.Heedless channels Held needs' → ∀ t : τ, Held s t → ∀ calls' : List Signal,
        calls'.filterMap Signal.boundary? = calls.filterMap Signal.boundary? →
        Signal.Early slots params.deactivationThreshold calls' →
        ∃ outcomes' m n t₁,
          attemptEach (hear needs'.tracing) calls' (c.startingWith cs, [], t)
            = .ok outcomes' ({ c₁ with successes := m, attempts := n }, made.map .deployed, t₁) ∧
          ∀ later : List Signal, ∃ results c₂ effects s₂ m' n' t₂,
            attemptEach (hear needs.tracing) later (c₁, made.map .deployed, s₁)
              = .ok results (c₂, effects, s₂) ∧
            attemptEach (hear needs'.tracing) later
                ({ c₁ with successes := m, attempts := n }, made.map .deployed, t₁)
              = .ok results ({ c₂ with successes := m', attempts := n' }, effects, t₂) ∧
            Held s₂ t₂ := by
  obtain ⟨hfits, rfl⟩ := create_eq_ok hcreate
  have hstart := asleep_fresh name voice hfits hprudent hlen hcs
  have hproper := hneeds.alike_tracing slots hfits.channels_pos
  obtain ⟨_, ⟨_, _⟩, hplain, outcomes, ⟨c₁, log, s₁⟩, htraced, ⟨made, hlog, hasleep⟩, rfl, rfl, -,
      -, rfl, -⟩ :=
    ends_iff.1 ((Agree.attemptEach (agree_hear hproper) calls).ends (s := (_, [], s)) (t := (_, s))
      ⟨rfl, hstart.onTime.valid.slots_table, hstart.onTime.valid.channels_table, rfl,
        hstart.onTime.valid.configured⟩ (hstart.ends_attemptEach hneeds hearly s))
  obtain rfl : log = made.map Effect.deployed := hlog
  refine ⟨outcomes, c₁, made, s₁, hplain, htraced, hasleep.blank.table_eq, hasleep.blank.outcomes_eq,
    hasleep.configurations_eq, ?_⟩
  intro τ _ needs' Held halike t hst calls' hboundaries hearly'
  obtain ⟨_, _, outcomes', ⟨d, log', t₁⟩, htraced', hother, hkindred⟩ := hstart.kindred hneeds halike
    hst (Signal.sameBoundaries_of_filterMap_eq hboundaries.symm) hearly hearly'
  cases htraced.symm.trans htraced'
  obtain ⟨⟨m, n, rfl⟩, rfl, -⟩ := kindred_iff.1 hkindred
  refine ⟨outcomes', m, n, t₁, hother, fun later => ?_⟩
  have hlater := Agree.attemptEach (halike.agree_hear slots hfits.channels_pos) later
  have hends := ends_attemptEach_true (hear needs.tracing) later
    (c₁, made.map Effect.deployed, s₁)
  obtain ⟨_, ⟨e, effects', t₂⟩, hlast', results, ⟨c₂, effects, s₂⟩, hlast, -, rfl, hend⟩ :=
    ends_iff.1 (hlater.ends hkindred hends)
  obtain ⟨⟨m', n', rfl⟩, rfl, hst₂, -⟩ := kindred_iff.1 hend
  exact ⟨results, c₂, effects, s₂, m', n', t₂, hlast, hlast', hst₂⟩

/-- Two slotframes of two slots with successes in them. -/
def successful : List Signal :=
  [.boundary (.int 0), .outcome (.int 1) (.int 2) true, .boundary (.int 2),
    .outcome (.int 0) (.int 0) true, .boundary (.int 5), .boundary (.int 6)]

def unsuccessful : List Signal :=
  [.boundary (.int 0), .boundary (.int 2), .boundary (.int 5), .outcome (.int 7) (.int 0) false,
    .boundary (.int 6)]

/-- The gate opens with the second slotframe; the first deployment is refused. A third slotframe
with a success comes to the same behind both. -/
theorem settling_leaves_no_trace_successful :
    Signal.Early 2 2 successful ∧ Signal.Early 2 2 unsuccessful ∧
    ∃ (c₁ : ChannelHopping Float) (made : List Deployment) (outcomes outcomes' results : _)
        (c₂ : ChannelHopping Float) (effects : List (Effect Float)) (m n m' n' : Nat)
        (s₁ t₁ s₂ t₂ : Script),
      let c := (fresh (.level 0.5 2) (.text "PAN") .ofModule 2 3).startingWith [1, 2]
      attemptEach (hear Script.answering.tracing) successful (c, [], ⟨[false]⟩)
        = .ok outcomes (c₁, made.map .deployed, s₁) ∧
      attemptEach (hear Script.answering.tracing) unsuccessful (c, [], ⟨[false]⟩)
        = .ok outcomes' ({ c₁ with successes := m, attempts := n }, made.map .deployed, t₁) ∧
      c₁.table = Grid.empty 2 3 0 ∧
      made.map Deployment.configuration
        = [Datum.ofInts [1, 2], Datum.ofInts [0, 0], Datum.ofInts [0, 0]] ∧
      attemptEach (hear Script.answering.tracing)
          [.outcome (.int 0) (.int 0) true, .boundary (.int 8)] (c₁, made.map .deployed, s₁)
        = .ok results (c₂, effects, s₂) ∧
      attemptEach (hear Script.answering.tracing)
          [.outcome (.int 0) (.int 0) true, .boundary (.int 8)]
          ({ c₁ with successes := m, attempts := n }, made.map .deployed, t₁)
        = .ok results ({ c₂ with successes := m', attempts := n' }, effects, t₂) := by
  have hearly : Signal.Early 2 2 successful := by decide +kernel
  have hearly' : Signal.Early 2 2 unsuccessful := by decide +kernel
  have hproper : Script.answering.Proper 3 := {
    deploy_ends := fun _ _ => trivial
    uniform_ends := fun _ => trivial
    below_ends := fun _ => by
      show (0 : Int) ≤ 0 ∧ (0 : Int) < 3
      decide
    obstacle?_eq_none := fun _ _ => rfl }
  have halike : Script.answering.Heedless 3 Eq Script.answering := {
    deploy := fun _ _ _ hst => ⟨congrArg (fun s : Script => s.answers.headD true) hst,
      congrArg (fun s : Script => Script.mk s.answers.tail) hst⟩
    uniform := fun _ _ hst => ⟨rfl, hst⟩
    below := fun _ _ hst => ⟨⟨rfl, by decide, by decide⟩, hst⟩
    left := fun hst _ => ⟨rfl, hst⟩
    right := fun hst _ => ⟨rfl, hst⟩ }
  have hcreate : create (.level 0.5 2) (.text "PAN") .ofModule (.int (2 : Nat)) (.int (3 : Nat))
      = .ok (fresh (.level (0.5 : Float) 2) (.text "PAN") .ofModule 2 3) := rfl
  have haccepted : Signal.accepted successful = [0, 2, 5, 6] := by decide +kernel
  obtain ⟨outcomes, c₁, made, s₁, -, hrun, htable, -, hmade, hother⟩ :=
    settling_leaves_no_trace hcreate rfl (show [(1 : Int), 2].length = 2 from rfl) (by decide)
      hproper hearly ⟨[false]⟩
  obtain ⟨outcomes', m, n, t₁, hrun', hlater⟩ := hother halike ⟨[false]⟩ rfl unsuccessful rfl hearly'
  obtain ⟨results, c₂, effects, s₂, m', n', t₂, hlast, hlast', -⟩ :=
    hlater [.outcome (.int 0) (.int 0) true, .boundary (.int 8)]
  rw [haccepted] at hmade
  exact ⟨hearly, hearly', c₁, made, outcomes, outcomes', results, c₂, effects, m, n, m', n', s₁, t₁,
    s₂, t₂, hrun, hrun', htable, hmade, hlast, hlast'⟩

end ChannelHopping
end TschLearning
