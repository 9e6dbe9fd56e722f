import TschLearning.Draws.Permuted
import TschLearning.Proofs.Deployer.Configurations
import TschLearning.Proofs.Deployer.InStep
import TschLearning.Proofs.Scenario.Devices
import TschLearning.Proofs.Scheduler.Fresh

/-! Deployments of links are all or nothing, however many of them there are and wherever one of
them is refused. -/

namespace TschLearning

namespace Fleet

open TschLearning.Action

variable {μ κ σ ν : Type} [DecidableEq μ] [Journal σ] {f : Fleet μ κ σ ν} {rest : ν}
  {d : LinkDeployer μ} {s : σ}

theorem InStep.deploy_eq_ok (h : f.InStep rest d s) {c : IntConfiguration}
    (hcov : f.CoversAll c.links) :
    ∃ answer d' t calls,
      Deployer.deploy f.access c.given (.links d, s) = .ok answer (.links d', t) ∧
      Deployer.deploy f.access.recording c.given (.links d, [], s)
        = .ok answer (.links d', calls, t) ∧
      f.InStep rest d' t ∧ f.Outcome d c.links answer d' calls := by
  have hrec := h.ends_deploy c.distinct_links hcov []
  have hplain := (LinkDeployer.agree_deploy f.access c.links).ends
    (s := (d, [], s)) (t := (d, s)) ⟨rfl, rfl⟩ hrec
  obtain ⟨_, ⟨_, _⟩, hp, answer, ⟨d', calls, t⟩, hr, hpost, rfl, rfl, rfl⟩ := ends_iff.1 hplain
  obtain ⟨hstep, calls', hcalls, hout⟩ := hpost
  obtain rfl : calls = calls' := hcalls
  exact ⟨answer, d', t, calls, Deployer.deploy_links_eq_ok hp, Deployer.deploy_links_eq_ok hr,
    hstep, hout⟩

theorem Outcome.failures_eq {links : Links} {answer : Bool} {d' : LinkDeployer μ}
    {calls : List (MacCall μ)} (h : f.Outcome d links answer d' calls) :
    d'.failures = d.failures + [answer].count false := by
  cases h <;> rfl

theorem Outcome.eq_true {links : Links} {answer : Bool} {d' : LinkDeployer μ}
    {calls : List (MacCall μ)} (h : f.Outcome d links answer d' calls) (hmacs : d.macs = f.ids)
    (hfree : ∀ i ∈ f.ids, (f.mac i).capacity = none) : answer = true := by
  cases h with
  | taken => rfl
  | @givenUp before p hbreak =>
    obtain ⟨after, hplan⟩ := hbreak.plan_eq
    have hp : p ∈ planOf d links := by
      rw [hplan]
      exact List.mem_append_right _ List.mem_cons_self
    have hi : p.1 ∈ f.ids := hmacs ▸ (mem_planOf.1 hp).1
    exact absurd (Mac.hasRoom_of_capacity_eq_none (hfree p.1 hi) _) hbreak.noRoom

theorem InStep.deployEach_eq_ok (h : f.InStep rest d s) (history : List IntConfiguration)
    (hcov : ∀ c ∈ history, f.CoversAll c.links) :
    ∃ answers d' t,
      Deployer.deployEach f.access history (.links d, s) = .ok answers (.links d', t) ∧
      f.InStep rest d' t ∧ d'.failures = d.failures + answers.count false := by
  induction history generalizing d s with
  | nil => exact ⟨[], d, s, rfl, h, rfl⟩
  | cons c history ih =>
    obtain ⟨answer, d', t, calls, hc, -, hstep, hout⟩ :=
      h.deploy_eq_ok (hcov c List.mem_cons_self)
    obtain ⟨answers, d'', u, hrest, hlast, hfail⟩ :=
      ih hstep fun c' hc' => hcov c' (List.mem_cons_of_mem _ hc')
    refine ⟨answer :: answers, d'', u, Deployer.deployEach_cons_eq_ok hc hrest, hlast, ?_⟩
    · have hcount : (answer :: answers).count false
          = [answer].count false + answers.count false := by
        rw [← List.count_append]
        rfl
      rw [hfail, hout.failures_eq, hcount, Nat.add_assoc]

end Fleet

namespace Pan

open Fleet

variable {ρ α : Type}

/-- Devices as they were, but for their links, which are the given ones in some order. -/
def HaveLinks (ids : List Nat) (mac : Nat → Mac Unit) (links : Links) (p : Pan ρ α) : Prop :=
  ∀ i ∈ ids, ∃ l : Links, p.macs[i]? = some ((mac i).withLinks l) ∧ l.Same links

/-- The devices of a network, as a deployer of links finds them. -/
def fleet (ids : List Nat) (hids : ids.Nodup) (mac : Nat → Mac Unit)
    (hsized : ∀ i ∈ ids, (mac i).IsSized) :
    Fleet Nat Unit (Pan ρ α) (ChannelHopping α × Deployer Nat × Sources ρ × Statistics) where
  shelf := shelf
  rest := aside
  lawful := lawful_shelf
  labels i := Mac.labelOf (.text (deviceName i))
  ids := ids
  nodup_ids := hids
  mac := mac
  sized := hsized

variable {ids : List Nat} (hids : ids.Nodup) {mac : Nat → Mac Unit}
  (hsized : ∀ i ∈ ids, (mac i).IsSized) {p : Pan ρ α}

theorem inStep_create (hmac : ∀ i ∈ ids, p.macs[i]? = some (mac i))
    (hempty : ∀ i ∈ ids, (mac i).links = .empty) :
    (fleet ids hids mac hsized).InStep p.aside (.create ids) p :=
  Fleet.inStep_create (f := fleet ids hids mac hsized) hmac hempty

variable {hids hsized} in
theorem haveLinks_of_inStep {d : LinkDeployer Nat}
    {rest : ChannelHopping α × Deployer Nat × Sources ρ × Statistics}
    (h : (fleet ids hids mac hsized).InStep rest d p) : HaveLinks ids mac d.last p := by
  intro i hi
  obtain ⟨l, hl, hd, ht⟩ := h.holds.links i hi
  exact ⟨l, hl, Links.same_of_channel?_eq hd h.distinct ht⟩

/-- After any number of deployments every device has exactly the links that were deployed last,
and the next deployment is all or nothing. An accepted one edits only slots whose channel
changes. One that is given up was refused a link; every edit before that is taken back, from the
last on, without another refusal, and leaves the links as they were. -/
theorem deploy_links_atomic {ids : List Nat} (hids : ids.Nodup) (mac : Nat → Mac Unit)
    (hsized : ∀ i ∈ ids, (mac i).IsSized) {p : Pan ρ α}
    (hempty : ∀ i ∈ ids, (mac i).links = .empty) (hmac : ∀ i ∈ ids, p.macs[i]? = some (mac i))
    (history : List IntConfiguration) (next : IntConfiguration)
    (hrange : ∀ c ∈ next :: history, ∀ i ∈ ids, ∀ e ∈ c.links.entries, (mac i).Covers e.1 e.2) :
    ∃ answers d q,
      Deployer.deployEach macAccess history (.create .links ids, p) = .ok answers (.links d, q) ∧
      HaveLinks ids mac d.last q ∧ d.failures = answers.count false ∧
      ∃ answer d' q' calls,
        Deployer.deploy macAccess next.given (.links d, q) = .ok answer (.links d', q') ∧
        Deployer.deploy macAccess.recording next.given (.links d, [], q)
          = .ok answer (.links d', calls, q') ∧
        HaveLinks ids mac d'.last q' ∧
        match answer with
        | true =>
          d'.last = next.links ∧ d'.failures = d.failures ∧
            ∀ call ∈ calls, call.refusal = none ∧ ∃ e : LinkEdit, call.request = e.request ∧
              d.last.channel? e.slot ≠ next.links.channel? e.slot
        | false =>
          d'.last = d.last ∧ d'.failures = d.failures + 1 ∧
            ∃ before i slot channel after,
              d.plan (LinkEdit.between d.last next.links) = before ++ (i, .add slot channel) :: after ∧
              calls = before.map accepted ++ [⟨i, .addLink slot channel, some (mac i).full⟩]
                ++ (before.map undo).reverse.map accepted := by
  have hstart := inStep_create hids hsized hmac hempty
  obtain ⟨answers, d, q, hruns, hstep, hfail⟩ := hstart.deployEach_eq_ok history
    fun c hc => hrange c (List.mem_cons_of_mem _ hc)
  obtain ⟨answer, d', q', calls, hplain, hrec, hstep', hout⟩ :=
    hstep.deploy_eq_ok (hrange next List.mem_cons_self)
  refine ⟨answers, d, q, hruns, haveLinks_of_inStep hstep, ?_, answer, d', q', calls, hplain, hrec,
    haveLinks_of_inStep hstep', ?_⟩
  · rw [hfail, LinkDeployer.create, Nat.zero_add]
  · cases hout with
    | taken =>
      refine ⟨rfl, rfl, fun call hcall => ?_⟩
      obtain ⟨⟨i, e⟩, he, rfl⟩ := List.mem_map.1 hcall
      obtain ⟨_, -, hedit⟩ := List.mem_flatMap.1 he
      obtain ⟨_, hmem, heq⟩ := List.mem_map.1 hedit
      cases heq
      exact ⟨rfl, e, rfl, LinkEdit.channel?_ne_of_mem_between hmem⟩
    | @givenUp before p hbreak =>
      obtain ⟨i, e⟩ := p
      obtain ⟨after, hplan⟩ := hbreak.plan_eq
      obtain ⟨slot, channel, rfl⟩ := hbreak.isAdd
      exact ⟨rfl, rfl, before, i, slot, channel, after, hplan, rfl⟩

/-- Devices of two slots and three channels, all but the first one with room for a single
link. -/
def crampedMac (i : Nat) : Mac Unit where
  name := .text (deviceName i)
  slots := .int 2
  channels := .int 3
  owned := [0, 1]
  capacity := if i = 0 then none else some (.int 1)
  links := .empty
  sequence := none
  queue := []
  sink := none
  asn := none

def cramped : Pan Permuted Float where
  macs := #[crampedMac 0, crampedMac 1]
  scheduler := .fresh (.level 0 0) (.text "PAN") .ofModule 2 3
  deployer := .create .links [0, 1]
  sources := .shared (.ofWords 0 0)
  statistics := .empty
  notes := []

/-- Links for both slots do not go into the second device, one for a single slot does. -/
theorem deploy_links_atomic_cramped :
    ∃ answers d q,
      Deployer.deployEach macAccess [.row [0, 1], .table [(1, 2)] (by decide)]
        (.create .links [0, 1], cramped) = .ok answers (.links d, q) ∧
      HaveLinks [0, 1] crampedMac d.last q := by
  have hsized : ∀ i ∈ [0, 1], (crampedMac i).IsSized := by
    intro i _ d hd
    simp only [crampedMac] at hd
    split at hd
    · cases hd
    · cases hd
      rfl
  have hmac : ∀ i ∈ [0, 1], cramped.macs[i]? = some (crampedMac i) := by
    simp [cramped]
  have hrange : ∀ c ∈ [IntConfiguration.row [2, 2], .row [0, 1], .table [(1, 2)] (by decide)],
      ∀ i ∈ [0, 1], ∀ e ∈ c.links.entries, (crampedMac i).Covers e.1 e.2 := by
    simp [IntConfiguration.links, Links.ofChannels, Mac.Covers, crampedMac]
    constructor <;> intros <;> omega
  obtain ⟨answers, d, q, hruns, hlinks, -⟩ :=
    deploy_links_atomic (by decide) crampedMac hsized (fun _ _ => rfl) hmac
      [.row [0, 1], .table [(1, 2)] (by decide)] (.row [2, 2]) hrange
  exact ⟨answers, d, q, hruns, hlinks⟩

end Pan
end TschLearning
