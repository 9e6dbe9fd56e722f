import Mathlib.Algebra.Order.Floor.Div
import TschLearning.Proofs.Action.Ends
import TschLearning.Simulation

/-! A process that goes on again and again after the same duration, alone in its simulation. A run
lets it go on at every multiple of the duration before the end of the run, and no more: the end is
urgent, so it comes before what is due at the same time. What is left waits for the next run, so
that it makes no difference whether time passes in one run or in many. -/

namespace TschLearning.Simulation

open TschLearning.Action

variable {π ω : Type}

/-- The process is to go on for the time after the first `k`. Only a start is urgent. -/
def IsDue (p : π) (d k : Nat) (e : Entry Fault π) : Prop :=
  ∃ urgent serial, e = ⟨.int (d * k : Nat), urgent, serial, .ok (.resume p .null)⟩ ∧
    (urgent = true → k = 0)

def IsEnd (finish : Nat) (e : Entry Fault π) : Prop :=
  ∃ serial, e = ⟨.int finish, true, serial, .ok .stop⟩

/-- Nothing happens from now on but that the process goes on at the next multiple of the duration
that has not passed. -/
structure Awaits (p : π) (d now : Nat) (a : Agenda Fault π) : Prop where
  now_eq : a.now = .int now
  queue_eq : ∃ e, a.queue = [e] ∧ IsDue p d (now ⌈/⌉ d) e

/-- In a run that ends at a time, the process is to go on for the time after the first `k`. -/
def Runs (p : π) (d finish k : Nat) (a : Agenda Fault π) : Prop :=
  ∃ e f, IsDue p d k e ∧ IsEnd finish f ∧ a.queue = if d * k < finish then [e, f] else [f, e]

/-- Each time it goes on, for as many times as are given, the process leaves off for the same
duration, and its world gets from one stage to the next. -/
structure Ticks (prog : Program π ω) (p : π) (d rounds : Nat) (At : Nat → ω → Prop) : Prop where
  pos : 0 < d
  resume : ∀ {k} {s : Simulation π ω}, k < rounds → s.agenda.now = .int (d * k : Nat) →
    At k s.world →
    Ends (prog.resume p .null) s fun pause t =>
      pause = .delay (.int d) .null p ∧ t.agenda = s.agenda ∧ At (k + 1) t.world
  resumptions : ∀ {k w} (span : Nat), At k w → span ⌈/⌉ d ≤ prog.resumptions w (.int span) p

variable {prog : Program π ω} {p : π} {d rounds now finish k : Nat} {At : Nat → ω → Prop}
  {s : Simulation π ω}

/-! ### Entries -/

/-- At the time of the end, nothing that is due is urgent. -/
theorem IsDue.not_urgent {urgent : Bool} {serial : Nat} (hpos : 0 < d * k)
    (h : IsDue p d k ⟨.int (d * k : Nat), urgent, serial, .ok (.resume p .null)⟩) :
    urgent = false := by
  obtain ⟨_, _, he, hurgent⟩ := h
  cases he
  cases urgent with
  | false => rfl
  | true => simp [hurgent rfl] at hpos

/-- What is due before the end of a run comes first, and what is due at the same time does not. -/
theorem before_end {e f : Entry Fault π} (he : IsDue p d k e) (hf : IsEnd finish f)
    (hpos : 0 < finish) :
    e.before f = decide (d * k < finish) ∧ f.before e = decide (finish ≤ d * k) := by
  obtain ⟨urgent, serial, rfl, -⟩ := id he
  obtain ⟨serial', rfl⟩ := hf
  simp only [Entry.before, Number.same_int, Number.lt_int, Int.ofNat_inj, Int.ofNat_lt,
    decide_eq_true_iff]
  by_cases hsame : d * k = finish
  · obtain rfl := he.not_urgent (hsame ▸ hpos)
    simp [hsame]
  · simp only [if_neg hsame, if_neg (Ne.symm hsame), true_and, decide_eq_decide]
    omega

theorem awaits_start : Awaits p d 0 (Agenda.start .fresh p) := by
  refine ⟨rfl, _, rfl, true, 0, ?_, fun _ => zero_ceilDiv _⟩
  rw [zero_ceilDiv, Nat.mul_zero]
  rfl

/-- A run starts with its end in the agenda. -/
theorem Awaits.runs_schedule {a : Agenda Fault π} (ha : Awaits p d now a) (hpos : 0 < finish) :
    Runs p d finish (now ⌈/⌉ d) (a.schedule (.int finish) true (.ok .stop)) := by
  obtain ⟨e, hqueue, he⟩ := ha.queue_eq
  have hf : IsEnd (π := π) finish ⟨.int finish, true, a.entered, .ok .stop⟩ := ⟨_, rfl⟩
  refine ⟨e, _, he, hf, ?_⟩
  rw [Agenda.schedule, hqueue, Heap.enter_singleton, (before_end he hf hpos).2]
  by_cases h : d * (now ⌈/⌉ d) < finish
  · simp [h]
  · simp [h, not_lt.1 h]

/-- The process has left off once more. -/
theorem runs_afterDelay {a : Agenda Fault π} {f : Entry Fault π} (hf : IsEnd finish f)
    (hpos : 0 < finish) (hnow : a.now = .int (d * k : Nat)) (hqueue : a.queue = [f]) :
    Runs p d finish (k + 1) (afterDelay (.int d) .null p a) := by
  have htime : a.now.add? (.int d) = some (.int (d * (k + 1) : Nat)) := by
    rw [hnow, Number.add?, Nat.mul_succ, Int.natCast_add]
  have hnonneg : (Number.int d).lt (.int 0) = false := by
    rw [Number.lt_int, decide_eq_false_iff_not]
    omega
  have he : IsDue p d (k + 1) ⟨.int (d * (k + 1) : Nat), false, a.entered, .ok (.resume p .null)⟩ :=
    ⟨false, _, rfl, fun h => (Bool.false_ne_true h).elim⟩
  refine ⟨_, f, he, hf, ?_⟩
  simp only [afterDelay, hnonneg, htime, Agenda.schedule, hqueue, Heap.enter_singleton,
    (before_end he hf hpos).1, Bool.false_eq_true, if_false, decide_eq_true_iff]

/-! ### Steps -/

theorem ends_plan {f : Agenda Fault π → Agenda Fault π} {post : Unit → Simulation π ω → Prop} :
    Ends (plan f) s post ↔ post () { s with agenda := f s.agenda } := Iff.rfl

theorem ends_inWorld {β : Type} {x : Action ω β} {post : β → Simulation π ω → Prop} :
    Ends (inWorld x) s post ↔ Ends x s.world fun b w => post b { s with world := w } := by
  simp only [Ends, inWorld]
  cases x s.world <;> rfl

theorem ends_step {cue : Cue π} {agenda : Agenda Fault π}
    (hnext : s.agenda.next? = some (.ok cue, agenda))
    {post : Option RunEnd → Simulation π ω → Prop} :
    Ends (step prog) s post ↔ Ends (perform prog cue) { s with agenda } fun stops t =>
      post (if stops then some .stopped else none) t := by
  have hstep : step prog s = ((fun stops => if stops then some RunEnd.stopped else none) <$>
      perform prog cue) { s with agenda } := by
    unfold step
    rw [hnext]
  refine Iff.trans ?_ ends_map
  unfold Ends
  rw [hstep]

theorem ends_goOn {value : Datum} {post : Unit → Simulation π ω → Prop}
    (h : Ends (prog.resume p value) s fun pause t => Ends (leaveOff pause) t post) :
    Ends (goOn prog p value) s post := by
  obtain ⟨pause, t, hresume, hpost⟩ := ends_iff.1 h
  unfold Ends goOn
  rw [hresume]
  exact hpost

/-- Before the end of a run, the process goes on and leaves off again. -/
theorem Ticks.ends_step_tick (h : Ticks prog p d rounds At) (hk : k < rounds)
    (hlt : d * k < finish) (hs : Runs p d finish k s.agenda) (hat : At k s.world) :
    Ends (step prog) s fun ending t =>
      ending = none ∧ Runs p d finish (k + 1) t.agenda ∧ At (k + 1) t.world := by
  obtain ⟨_, f, ⟨urgent, serial, rfl, -⟩, hf, hqueue⟩ := hs
  rw [if_pos hlt] at hqueue
  have hnext : s.agenda.next? = some (.ok (.resume p .null),
      { s.agenda with now := .int (d * k : Nat), queue := [f] }) := by
    rw [Agenda.next?, hqueue, Heap.takeFirst_pair]
    rfl
  rw [ends_step hnext, perform, ends_bind]
  refine ends_goOn ((h.resume hk ?_ ?_).mono ?_)
  · rfl
  · exact hat
  · rintro _ t ⟨rfl, hagenda, hat⟩
    refine ⟨rfl, ?_, hat⟩
    refine runs_afterDelay hf (Nat.zero_lt_of_lt hlt) ?_ ?_
    · rw [hagenda]
    · rw [hagenda]

/-- At the end of a run, the process has gone on as often as fits into the time so far. -/
theorem ends_step_end (hd : 0 < d) (hs : Runs p d finish (finish ⌈/⌉ d) s.agenda) :
    Ends (step prog) s fun ending t =>
      ending = some .stopped ∧ Awaits p d finish t.agenda ∧ t.world = s.world := by
  obtain ⟨e, _, he, ⟨serial, rfl⟩, hqueue⟩ := hs
  rw [if_neg (not_lt.2 ((ceilDiv_le_iff_le_mul hd).1 le_rfl))] at hqueue
  have hnext : s.agenda.next? = some (.ok .stop,
      { s.agenda with now := .int finish, queue := [e] }) := by
    rw [Agenda.next?, hqueue, Heap.takeFirst_pair]
    rfl
  rw [ends_step hnext]
  exact ⟨rfl, ⟨rfl, e, rfl, he⟩, rfl⟩

/-! ### Runs -/

/-- A run goes on until its end, whatever the number of steps beyond those it takes. -/
theorem Ticks.ends_runSteps (h : Ticks prog p d rounds At) (hrounds : finish ⌈/⌉ d ≤ rounds)
    {left fuel : Nat} (hleft : k + left = finish ⌈/⌉ d) (hfuel : left < fuel)
    (hs : Runs p d finish k s.agenda) (hat : At k s.world) :
    Ends (runSteps prog fuel) s fun _ t =>
      Awaits p d finish t.agenda ∧ At (finish ⌈/⌉ d) t.world := by
  induction left generalizing k fuel s with
  | zero =>
    obtain ⟨fuel, rfl⟩ := Nat.exists_eq_add_one_of_ne_zero hfuel.ne_bot
    obtain rfl : k = finish ⌈/⌉ d := hleft
    rw [runSteps, ends_bind]
    refine (ends_step_end h.pos hs).mono ?_
    rintro _ t ⟨rfl, hawaits, hworld⟩
    exact ⟨hawaits, hworld ▸ hat⟩
  | succ left ih =>
    obtain ⟨fuel, rfl⟩ := Nat.exists_eq_add_one_of_ne_zero hfuel.ne_bot
    have hk : k < finish ⌈/⌉ d := by omega
    have hlt : d * k < finish := not_le.1 (mt (ceilDiv_le_iff_le_mul h.pos).2 (not_le.2 hk))
    rw [runSteps, ends_bind]
    refine (h.ends_step_tick (hk.trans_le hrounds) hlt hs hat).mono ?_
    rintro _ t ⟨rfl, hruns, hat⟩
    exact ih (by omega) (by omega) hruns hat

/-- No more steps are made than a run is allowed. -/
theorem Ticks.lt_stepBound (h : Ticks prog p d rounds At) (hs : Runs p d finish k s.agenda)
    (hat : At k s.world) (span : Nat) : span ⌈/⌉ d < stepBound prog (.int span) s := by
  have hresumptions := h.resumptions span hat
  obtain ⟨e, f, ⟨urgent, serial, rfl, -⟩, ⟨serial', rfl⟩, hqueue⟩ := hs
  unfold stepBound
  rw [hqueue]
  split
  · simp only [List.length_cons, List.length_nil, List.foldl_cons, List.foldl_nil, processesOf]
    omega
  · simp only [List.length_cons, List.length_nil, List.foldl_cons, List.foldl_nil, processesOf]
    omega

/-- A run for a span of time lets the process go on as often as it would have by its end if time
had passed in one run. -/
theorem Ticks.ends_runFor (h : Ticks prog p d rounds At) {span : Nat} (hspan : 0 < span)
    (hrounds : (now + span) ⌈/⌉ d ≤ rounds) (hs : Awaits p d now s.agenda)
    (hat : At (now ⌈/⌉ d) s.world) :
    Ends (runFor prog (.int span)) s fun _ t =>
      Awaits p d (now + span) t.agenda ∧ At ((now + span) ⌈/⌉ d) t.world := by
  have hfinish : s.agenda.now.add? (.int span) = some (.int (now + span : Nat)) := by
    rw [hs.now_eq]
    rfl
  have hlater : (Number.int (now + span : Nat)).le s.agenda.now = false := by
    rw [hs.now_eq, Number.le_int, decide_eq_false_iff_not]
    omega
  have hend : s.agenda.now.add ((Number.int (now + span : Nat)).sub s.agenda.now) =
      .int (now + span : Nat) := by
    rw [hs.now_eq]
    simp only [Number.sub, Number.add]
    congr 1
    omega
  obtain ⟨t, ht⟩ : ∃ t : Simulation π ω,
      t = { s with agenda := s.agenda.schedule (.int (now + span : Nat)) true (.ok .stop) } :=
    ⟨_, rfl⟩
  have hruns : Runs p d (now + span) (now ⌈/⌉ d) t.agenda := by
    rw [ht]
    exact hs.runs_schedule (by omega)
  have hat : At (now ⌈/⌉ d) t.world := by rwa [ht]
  have hmore : (now + span) ⌈/⌉ d ≤ now ⌈/⌉ d + span ⌈/⌉ d := by
    rw [ceilDiv_le_iff_le_mul h.pos, Nat.mul_add]
    exact Nat.add_le_add ((ceilDiv_le_iff_le_mul h.pos).1 le_rfl)
      ((ceilDiv_le_iff_le_mul h.pos).1 le_rfl)
  have hfewer : now ⌈/⌉ d ≤ (now + span) ⌈/⌉ d :=
    (gc_mul_ceilDiv h.pos).monotone_l (Nat.le_add_right now span)
  have hbound := h.lt_stepBound hruns hat span
  have hclock : Ends Simulation.now s fun b t => b = s.agenda.now ∧ s = t := ⟨rfl, rfl⟩
  rw [runFor, ends_bind]
  refine hclock.mono ?_
  rintro _ _ ⟨rfl, rfl⟩
  simp only [hfinish, hlater, hend, Bool.false_eq_true, if_false, ends_bind, ends_plan, ends_get,
    ends_pure]
  rw [← ht]
  exact h.ends_runSteps hrounds (Nat.add_sub_cancel' hfewer) (Nat.lt_add_right patience (by omega))
    hruns hat

/-- Runs that each keep what holds at the time that the ones before have come to. -/
theorem ends_spans {σ : Type} {run : Nat → Action σ Unit} {I : Nat → σ → Prop} {spans : List Nat}
    (hrun : ∀ past span rest, past ++ span :: rest = spans → ∀ s, I past.sum s →
      Ends (run span) s fun _ t => I (past.sum + span) t) {s : σ} (hs : I 0 s) :
    Ends (spans.forM run) s fun _ t => I spans.sum t := by
  have hmore : ∀ rest past, past ++ rest = spans → ∀ s, I past.sum s →
      Ends (rest.forM run) s fun _ t => I spans.sum t := by
    intro rest
    induction rest with
    | nil =>
      rintro past rfl s hs
      rwa [List.append_nil]
    | cons span rest ih =>
      intro past hspans s hs
      show Ends (run span >>= fun _ => rest.forM run) s _
      rw [ends_bind]
      refine (hrun past span rest hspans s hs).mono fun _ t ht => ?_
      refine ih (past ++ [span]) ?_ t ?_
      · rwa [List.append_assoc]
      · rwa [List.sum_append, List.sum_singleton]
  exact hmore spans [] rfl s hs

/-- Runs for spans of time come to what one run for all of them comes to. -/
theorem Ticks.ends_forM_runFor {spans : List Nat} (h : Ticks prog p d (spans.sum ⌈/⌉ d) At)
    (hspans : ∀ span ∈ spans, 0 < span) (hs : Awaits p d 0 s.agenda) (hat : At 0 s.world) :
    Ends (spans.forM fun span => runFor prog (.int span)) s fun _ t =>
      Awaits p d spans.sum t.agenda ∧ At (spans.sum ⌈/⌉ d) t.world := by
  refine ends_spans (I := fun now (t : Simulation π ω) =>
    Awaits p d now t.agenda ∧ At (now ⌈/⌉ d) t.world) ?_ ?_
  · rintro past span rest rfl t ⟨ht, hat⟩
    refine h.ends_runFor (hspans span (by simp)) ((gc_mul_ceilDiv h.pos).monotone_l ?_) ht hat
    rw [List.sum_append, List.sum_cons]
    omega
  · rw [zero_ceilDiv]
    exact ⟨hs, hat⟩

theorem Ticks.ends_runFor_sum {spans : List Nat} (h : Ticks prog p d (spans.sum ⌈/⌉ d) At)
    (hsum : 0 < spans.sum) (hs : Awaits p d 0 s.agenda) (hat : At 0 s.world) :
    Ends (runFor prog (.int spans.sum)) s fun _ t =>
      Awaits p d spans.sum t.agenda ∧ At (spans.sum ⌈/⌉ d) t.world := by
  have hrounds : (0 + spans.sum) ⌈/⌉ d ≤ spans.sum ⌈/⌉ d := by rw [Nat.zero_add]
  have hrun := h.ends_runFor hsum hrounds hs (by rwa [zero_ceilDiv])
  rwa [Nat.zero_add] at hrun

end TschLearning.Simulation
