import TschLearning.Proofs.Deployer.Frame
import TschLearning.Proofs.Scenario.Prepared
import TschLearning.Proofs.Scheduler.Counts

/-! A channel scheduler on its own: what is left of a network once its devices are taken away. It
transmits in every slot that there is traffic for, on the channel configured then, and whatever it
deploys is accepted. A network whose devices take turns has the same scheduler, generators and
counts by channel, as long as nothing stands in the way of its deployments. -/

namespace TschLearning

open TschLearning.Action

/-- A scheduler with its generators and with counts by channel. -/
structure Solo (ρ α : Type) where
  scheduler : ChannelHopping α
  sources : Sources ρ
  channelAttempts : Tally Int
  channelSuccesses : Tally Int

instance {ρ α : Type} : Journal (Solo ρ α) where
  enter _ k := k

namespace Solo

variable {ρ α : Type} [Generator ρ α]

def needs : ChannelHopping.Needs (Solo ρ α) α where
  deploy _ := pure true
  draws := .ofGenerator (·.sources.scheduler)
    fun g k => { k with sources := k.sources.setScheduler g }

def draws : Draws (Solo ρ α) α :=
  .ofGenerator (·.sources.network) fun g k => { k with sources := k.sources.setNetwork g }

omit [Generator ρ α] in
def inScheduler {β : Type} (x : Action (ChannelHopping α × Solo ρ α) β) : Action (Solo ρ α) β :=
  x.beside Solo.scheduler fun scheduler k => { k with scheduler }

def begin : Action (Solo ρ α) Unit := do
  let scheduler := (← get).scheduler
  let drawn ← scheduler.drawConfiguration needs.draws
  modify fun k => { k with scheduler := scheduler.startingWith drawn }

omit [Generator ρ α] in
def counting (channel : Int) (success : Bool) (k : Solo ρ α) : Solo ρ α :=
  { k with
    channelAttempts := k.channelAttempts.bump channel
    channelSuccesses :=
      if success then k.channelSuccesses.bump channel else k.channelSuccesses }

variable [Arith α]

/-- Draws whether there is a frame to transmit. -/
def supplied (traffic : α) : Action (Solo ρ α) Bool := do
  if Arith.lt 0 traffic then return Arith.lt (← draws.uniform) traffic else return false

def transmit (interference : Interference α) (slot : Nat) (channel : Int) :
    Action (Solo ρ α) Unit := do
  let disturbed ← interference.disturbed draws (.int channel)
  inScheduler (ChannelHopping.recordOutcome (.int slot) (.int channel) !disturbed)
  modify (counting channel !disturbed)

def runSlot (slots : Nat) (interference : Interference α) (traffic : α) (asn : Nat) :
    Action (Solo ρ α) Unit := do
  inScheduler (ChannelHopping.onSlotBoundary needs (.int asn))
  match channelAt? (← get).scheduler.configuration (asn % slots) with
  | none => pure ()
  | some channel =>
    if ← supplied traffic then transmit interference (asn % slots) channel

def runSlots (slots : Nat) (interference : Interference α) (traffic : α) :
    Nat → Nat → Action (Solo ρ α) Unit
  | _, 0 => pure ()
  | asn, n + 1 => do
    runSlot slots interference traffic asn
    runSlots slots interference traffic (asn + 1) n

end Solo

/-- A device at its position among others that share the slots in turn: it has no frames waiting,
and of every so many slots it owns one. -/
structure Mac.Seated (slots nodes i : Nat) (m : Mac Unit) : Prop where
  queue_eq : m.queue = []
  owned_eq : ∀ t < slots, m.owned.contains t = decide (t % nodes = i)

namespace Pan

open ChannelHopping

variable {ρ α : Type} {slots channels nodes : Nat} {x : Option (List Int)} {p q : Pan ρ α}
  {k l : Solo ρ α}

/-- A configuration is known from how it is handed over. -/
theorem map_ofInts_injective : Function.Injective (Option.map Datum.ofInts) :=
  Option.map_injective fun _ _ h => List.map_injective_iff.2 (fun _ _ he => Datum.int.inj he) h

def solo (p : Pan ρ α) : Solo ρ α where
  scheduler := p.scheduler
  sources := p.sources
  channelAttempts := p.statistics.channelAttempts
  channelSuccesses := p.statistics.channelSuccesses

/-- A network whose devices take turns, with the configuration `x` that was accepted last, and what
it is without its devices. No deployment can fail, and none has failed so far. -/
structure Mirrors (slots channels nodes : Nat) (x : Option (List Int)) (p : Pan ρ α)
    (k : Solo ρ α) : Prop where
  stands : Stands slots channels (List.range nodes) x p
  unlimited : p.Unlimited (List.range nodes)
  failures_eq : p.deployer.failures = 0
  seated : ∀ i < nodes, (p.deviceAt i).Seated slots nodes i
  solo_eq : p.solo = k
  attempts_eq : p.statistics.totalAttempts = p.statistics.channelAttempts.total
  successes_eq : p.statistics.totalSuccesses = p.statistics.channelSuccesses.total

namespace Mirrors

theorem congr (h : Mirrors slots channels nodes x p k) (hm : q.macs = p.macs)
    (hd : q.deployer = p.deployer) (hs : q.statistics = p.statistics) (hl : q.solo = l) :
    Mirrors slots channels nodes x q l where
  stands := h.stands.congr hm hd
  unlimited := h.unlimited.congr (by rw [hd]) fun i _ => by rw [hm]
  failures_eq := by rw [hd]; exact h.failures_eq
  seated i hi := by
    rw [deviceAt, hm]
    exact h.seated i hi
  solo_eq := hl
  attempts_eq := by rw [hs]; exact h.attempts_eq
  successes_eq := by rw [hs]; exact h.successes_eq

theorem reschedule (h : Mirrors slots channels nodes x p k) (c : ChannelHopping α) :
    Mirrors slots channels nodes x { p with scheduler := c } { k with scheduler := c } := by
  obtain rfl := h.solo_eq
  exact h.congr rfl rfl rfl rfl

theorem redraw (h : Mirrors slots channels nodes x p k) (f : Sources ρ → Sources ρ) :
    Mirrors slots channels nodes x { p with sources := f p.sources }
      { k with sources := f k.sources } := by
  obtain rfl := h.solo_eq
  exact h.congr rfl rfl rfl rfl

theorem enter (h : Mirrors slots channels nodes x p k) (n : Note) :
    Mirrors slots channels nodes x (Journal.enter n p) k :=
  h.congr rfl rfl rfl h.solo_eq

theorem routine (h : Mirrors slots channels nodes x p k) {β : Type} {f : Mac Unit → β × Mac Unit}
    (hf : Mac.Routine f) (hqueue : ∀ m : Mac Unit, m.queue = [] → (f m).2.queue = []) (i : Nat) :
    Mirrors slots channels nodes x (p.routine f i) k where
  stands := h.stands.routine hf i
  unlimited := by
    refine h.unlimited.congr rfl fun j hj => ?_
    rw [getElem?_routine (h.stands.deviceAt_eq hj), h.stands.deviceAt_eq hj]
    obtain ⟨g, hg⟩ := hf
    split
    · rw [hg]
      rfl
    · rfl
  failures_eq := h.failures_eq
  seated j hj := by
    have hdevice : (p.routine f i).deviceAt j
        = if j = i then (f (p.deviceAt j)).2 else p.deviceAt j := by
      rw [deviceAt, getElem?_routine (h.stands.deviceAt_eq (List.mem_range.2 hj)), Option.getD_some]
    have hseated := h.seated j hj
    rw [hdevice]
    split
    · refine ⟨hqueue _ hseated.queue_eq, ?_⟩
      obtain ⟨g, hg⟩ := hf
      rw [hg]
      exact hseated.owned_eq
    · exact hseated
  solo_eq := h.solo_eq
  attempts_eq := h.attempts_eq
  successes_eq := h.successes_eq

/-! ### The scheduler -/

theorem ends_deploy (h : Mirrors slots channels nodes x p k) {cs : List Int}
    (hcs : InRange slots channels cs) :
    Ends (deploy (Datum.ofInts cs)) p fun answer q =>
      answer = true ∧ Mirrors slots channels nodes (some cs) q k := by
  have hfailures : Meets True (deploy (Datum.ofInts cs)) p fun answer (q : Pan ρ α) =>
      q.deployer.failures = p.deployer.failures + (!answer).toNat := by
    have hd := Deployer.failures_deploy macAccess (.channels (Datum.ofInts cs)) p.deployer p
    unfold Meets at hd ⊢
    simp only [deploy, beside]
    cases hx : Deployer.deploy macAccess (.channels (Datum.ofInts cs)) (p.deployer, p) with
    | ok answer r =>
      rw [hx] at hd
      exact hd
    | error f r => trivial
  obtain ⟨answer, q, hrun, hdeploys⟩ := ends_iff.1 (h.stands.ends_deploy List.nodup_range hcs)
  obtain rfl := hdeploys.accepted h.unlimited
  obtain ⟨hscheduler, hsources, hstatistics⟩ :
      q.scheduler = p.scheduler ∧ q.sources = p.sources ∧ q.statistics = p.statistics := by
    have hrest := hdeploys.remainder_eq
    simp only [remainder, Prod.mk.injEq] at hrest
    exact hrest
  refine ends_iff.2 ⟨true, q, hrun, rfl, ?_⟩
  exact {
    stands := hdeploys.stands
    unlimited := h.unlimited.congr hdeploys.mode_eq fun i hi =>
      capacity_of_bareAt_eq (hdeploys.bareAt_eq i hi)
    failures_eq := (hfailures.post hrun).trans h.failures_eq
    seated := fun i hi => by
      have hbare : (q.deviceAt i).bare = (p.deviceAt i).bare := by
        have he := hdeploys.bareAt_eq i (List.mem_range.2 hi)
        rw [bareAt, bareAt, h.stands.deviceAt_eq (List.mem_range.2 hi),
          hdeploys.stands.deviceAt_eq (List.mem_range.2 hi)] at he
        exact Option.some.inj he
      have hqueue := congrArg Mac.queue hbare
      have howned := congrArg Mac.owned hbare
      exact {
        queue_eq := hqueue.trans (h.seated i hi).queue_eq
        owned_eq := fun t ht =>
          (congrArg (·.contains t) howned).trans ((h.seated i hi).owned_eq t ht) }
    solo_eq := by
      obtain rfl := h.solo_eq
      rw [solo, solo, hscheduler, hsources, hstatistics]
    attempts_eq := by rw [hstatistics]; exact h.attempts_eq
    successes_eq := by rw [hstatistics]; exact h.successes_eq }

end Mirrors

section Scheduler

variable [Generator ρ α] {ds : List Deployment}

/-- After some deployments, all of them accepted, the last one is in place. -/
def Backs (slots channels nodes : Nat) (x : Option (List Int)) (ds : List Deployment) (p : Pan ρ α)
    (k : Solo ρ α) : Prop :=
  (∀ d ∈ ds, d.answer = true) ∧ ∃ x' : Option (List Int),
    x'.map Datum.ofInts = ds.foldl Ledger.accepting (x.map Datum.ofInts) ∧
    Mirrors slots channels nodes x' p k

/-- The scheduler gets the same answers and draws as it would on its own. -/
theorem coupled_solo (slots nodes : Nat) (hsound : Generator.Sound ρ) (hpos : 0 < channels)
    (x : Option (List Int)) :
    ChannelHopping.Coupled (needs : ChannelHopping.Needs (Pan ρ α) α) Solo.needs slots channels
      (Backs slots channels nodes x) where
  deploy {ds p k configuration} h hcfg := by
    obtain ⟨hall, x', hx', hmirrors⟩ := h
    obtain ⟨cs, rfl, hlen, hcs⟩ := hcfg
    refine (hmirrors.ends_deploy ⟨hlen, hcs⟩).mono ?_
    rintro _ q ⟨rfl, hnext⟩
    refine ⟨rfl, ?_, some cs, ?_, hnext⟩
    · intro d hd
      rcases List.mem_append.1 hd with hd | hd
      · exact hall d hd
      · rw [List.mem_singleton.1 hd]
    · rw [List.foldl_append, ← hx']
      rfl
  uniform {ds p k} h := by
    obtain ⟨hall, x', hx', hmirrors⟩ := h
    obtain rfl := hmirrors.solo_eq
    exact twin_iff.2
      ⟨_, _, _, _, rfl, rfl, rfl, hall, x', hx', hmirrors.redraw (Sources.setScheduler _)⟩
  below {ds p k} h := by
    obtain ⟨hall, x', hx', hmirrors⟩ := h
    obtain rfl := hmirrors.solo_eq
    obtain ⟨i, g, hdraw, hi⟩ := hsound channels p.sources.scheduler hpos
    have hleft : (needs (ρ := ρ) (α := α)).draws.below channels p
        = .ok i { p with sources := p.sources.setScheduler g } := by
      simp only [needs, Draws.ofGenerator, alone, Generator.drawBelow, hdraw]
    have hright : (Solo.needs (ρ := ρ) (α := α)).draws.below channels p.solo
        = .ok i { p.solo with sources := p.sources.setScheduler g } := by
      simp only [Solo.needs, Draws.ofGenerator, alone, Generator.drawBelow, solo, hdraw]
    exact twin_iff.2 ⟨_, _, _, _, hleft, hright, rfl, hi, hall, x', hx',
      hmirrors.redraw (Sources.setScheduler _)⟩
  note {ds p k} n h := by
    obtain ⟨hall, x', hx', hmirrors⟩ := h
    exact ⟨rfl, rfl, hall, x', hx', hmirrors.enter n⟩

/-- The first configuration, drawn in a network and without one. -/
theorem Mirrors.twin_begin (hsound : Generator.Sound ρ) (hfits : Fits slots channels)
    (h : Mirrors slots channels nodes x p k) (hs : p.scheduler.table.slots = slots)
    (hc : p.scheduler.table.channels = channels) :
    Twin (begin (ρ := ρ) (α := α)) Solo.begin p k fun _ _ q l =>
      ∃ cs, InRange slots channels cs ∧ q.scheduler = p.scheduler.startingWith cs ∧
        Mirrors slots channels nodes x q l := by
  have hcoupled := coupled_solo (α := α) slots nodes hsound hfits.channels_pos x
  have hstart : Backs slots channels nodes x [] p k :=
    ⟨fun d hd => absurd hd List.not_mem_nil, x, rfl, h⟩
  obtain rfl := h.solo_eq
  show Twin (do
      let drawn ← needs.draws.row p.scheduler.table.channels p.scheduler.table.slots
      modify fun r : Pan ρ α => { r with scheduler := p.scheduler.startingWith drawn })
    (do
      let drawn ← Solo.needs.draws.row p.scheduler.table.channels p.scheduler.table.slots
      modify fun r : Solo ρ α => { r with scheduler := p.scheduler.startingWith drawn }) p p.solo _
  rw [hs, hc]
  refine Twin.bind (Draws.twin_row (fun hs => Twin.mono (hcoupled.below hs) fun _ _ _ _ h =>
    ⟨⟨h.1, h.2.1⟩, h.2.2⟩) hfits.channels_lt slots hstart) ?_
  rintro cs _ q l ⟨⟨rfl, hcs⟩, -, x', hx', hnext⟩
  obtain rfl := map_ofInts_injective hx'
  exact ⟨cs, hcs, rfl, hnext.reschedule _⟩

end Scheduler

end Pan
end TschLearning
