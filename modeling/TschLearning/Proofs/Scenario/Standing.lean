import TschLearning.Proofs.Deployer.Atomic
import TschLearning.Proofs.Deployer.Sequences
import TschLearning.Proofs.Mac.Schedules

/-! How the devices of a network stand between deployments: every one has the configuration that
was accepted last, in the form that the deployer brings, and nothing else. A deployment of either
kind leaves them so, and touches nothing but schedules. -/

namespace TschLearning

def Deployer.mode {μ : Type} : Deployer μ → DeployMode
  | .sequence _ => .hoppingSequence
  | .links _ => .links

/-- A device of a slotframe, attached to the one scheduler. -/
structure Mac.Member (slots channels : Nat) (m : Mac Unit) : Prop where
  slots_eq : m.slots = .int slots
  channels_eq : m.channels = .int channels
  attached : m.sink = some ()
  named : m.name.IsKey
  sized : m.IsSized

theorem Mac.Routine.member {β : Type} {f : Mac Unit → β × Mac Unit} (hf : Mac.Routine f)
    {slots channels : Nat} {m : Mac Unit} (h : m.Member slots channels) :
    (f m).2.Member slots channels := by
  obtain ⟨g, hg⟩ := hf
  rw [hg m]
  exact { h with }

instance : Inhabited (Mac Unit) :=
  ⟨⟨.null, .null, .null, [], none, .empty, none, [], none, none⟩⟩

namespace Pan

open TschLearning.Action

variable {ρ α : Type} {slots channels : Nat} {ids : List Nat} {x : Option (List Int)}
  {p q : Pan ρ α}

/-- A channel for every slot. -/
def InRange (slots channels : Nat) (cs : List Int) : Prop :=
  cs.length = slots ∧ ∀ c ∈ cs, 0 ≤ c ∧ c < channels

/-- The devices have the configuration `x` that was accepted last, or nothing so far. -/
structure Stands (slots channels : Nat) (ids : List Nat) (x : Option (List Int)) (p : Pan ρ α) :
    Prop where
  covered : p.deployer.macs.Perm ids
  last_eq : ∀ d, p.deployer = .links d → d.last = .ofConfiguration x
  inRange : ∀ cs ∈ x, InRange slots channels cs
  device : ∀ i ∈ ids, ∃ m, p.macs[i]? = some m ∧ m.Member slots channels ∧
    m.Holds p.deployer.mode x
  roomy : ∀ d, p.deployer = .links d → ∀ i ∈ ids, ∀ m, p.macs[i]? = some m →
    m.HasRoom d.last.channel?

/-- No device has a limit that a deployment could run into. -/
def Unlimited (ids : List Nat) (p : Pan ρ α) : Prop :=
  p.deployer.mode = .links → ∀ i ∈ ids, ∀ m, p.macs[i]? = some m → m.capacity = none

def bareAt (p : Pan ρ α) (i : Nat) : Option (Mac Unit) := p.macs[i]?.map Mac.bare

/-- What a network has beside its devices, its deployer and its journal. -/
def remainder (p : Pan ρ α) : ChannelHopping α × Sources ρ × Statistics :=
  (p.scheduler, p.sources, p.statistics)

theorem remainder_eq_of_aside_eq (h : q.aside = p.aside) : q.remainder = p.remainder :=
  congrArg (fun a => (a.1, a.2.2)) h

/-- What a deployment does: it brings a configuration or leaves the one before, and touches
nothing but schedules. -/
structure Deploys (slots channels : Nat) (ids : List Nat) (x : Option (List Int)) (cs : List Int)
    (p : Pan ρ α) (answer : Bool) (q : Pan ρ α) : Prop where
  stands : Stands slots channels ids (if answer then some cs else x) q
  mode_eq : q.deployer.mode = p.deployer.mode
  bareAt_eq : ∀ i ∈ ids, q.bareAt i = p.bareAt i
  remainder_eq : q.remainder = p.remainder
  accepted : p.Unlimited ids → answer = true

def deviceAt (p : Pan ρ α) (i : Nat) : Mac Unit := p.macs[i]?.getD default

theorem Stands.deviceAt_eq (h : Stands slots channels ids x p) {i : Nat} (hi : i ∈ ids) :
    p.macs[i]? = some (p.deviceAt i) := by
  obtain ⟨m, hm, -⟩ := h.device i hi
  rw [deviceAt, hm, Option.getD_some]

theorem Stands.member (h : Stands slots channels ids x p) {i : Nat} (hi : i ∈ ids) :
    (p.deviceAt i).Member slots channels := by
  obtain ⟨m, hm, hmember, -⟩ := h.device i hi
  rwa [deviceAt, hm, Option.getD_some]

theorem Stands.holds (h : Stands slots channels ids x p) {i : Nat} (hi : i ∈ ids) :
    (p.deviceAt i).Holds p.deployer.mode x := by
  obtain ⟨m, hm, -, hholds⟩ := h.device i hi
  rwa [deviceAt, hm, Option.getD_some]

/-! ### Deployments of hopping sequences -/

theorem Stands.ends_deploy_sequence (h : Stands slots channels ids x p)
    {d : SequenceDeployer Nat} (hd : p.deployer = .sequence d) {cs : List Int}
    (hcs : InRange slots channels cs) :
    Ends (deploy (Datum.ofInts cs)) p (Deploys slots channels ids x cs p) := by
  have hperm : d.macs.Perm ids := by
    have hc := h.covered
    rwa [hd] at hc
  have hshows : shelf.Shows aside d.macs p.deviceAt p.aside p :=
    ⟨rfl, fun i hi => h.deviceAt_eq (hperm.mem_iff.1 hi)⟩
  have hacc : ∀ i ∈ d.macs, (p.deviceAt i).Accepts cs := by
    intro i hi
    have hm := h.member (hperm.mem_iff.1 hi)
    have hframe : Mac.InSlotframe slots channels cs := ⟨congrArg _ hcs.1, hcs.2⟩
    exact Mac.accepts_of_inSlotframe hm.slots_eq hm.channels_eq hframe
  unfold deploy
  rw [ends_beside, hd, Deployer.ends_deploy_sequence]
  refine (SequenceDeployer.ends_deploy lawful_shelf _ hshows hacc).mono ?_
  rintro answer ⟨d', t⟩ ⟨rfl, hmacs, ht⟩
  have hdevice : ∀ i ∈ ids, t.macs[i]? = some ((p.deviceAt i).withSequence cs) :=
    fun i hi => ht.get?_eq i (hperm.mem_iff.2 hi)
  exact {
    stands := {
      covered := by
        show d'.macs.Perm ids
        rw [hmacs]
        exact hperm
      last_eq := fun _ he => by cases he
      inRange := fun _ he => by
        cases he
        exact hcs
      device := fun i hi => by
        have hlinks := (h.holds hi)
        rw [hd] at hlinks
        exact ⟨_, hdevice i hi, { h.member hi with }, hlinks.1, rfl⟩
      roomy := fun _ he => by cases he }
    mode_eq := by rw [hd]; rfl
    bareAt_eq := fun i hi => by
      show t.macs[i]?.map Mac.bare = p.macs[i]?.map Mac.bare
      rw [hdevice i hi, h.deviceAt_eq hi]
      rfl
    remainder_eq := by
      show t.remainder = p.remainder
      exact remainder_eq_of_aside_eq ht.rest_eq
    accepted := fun _ => rfl }

/-! ### Deployments of links -/

theorem covers_ofChannels {m : Mac Unit} (hm : m.Member slots channels) {cs : List Int}
    (hcs : InRange slots channels cs) {e : Int × Int} (he : e ∈ (Links.ofChannels cs).entries) :
    m.Covers e.1 e.2 := by
  obtain ⟨⟨c, i⟩, hmem, rfl⟩ := List.mem_map.1 he
  have hfound := List.mk_mem_zipIdx_iff_getElem?.1 hmem
  have hi : i < cs.length := (List.getElem?_eq_some_iff.1 hfound).1
  have hc := hcs.2 c (List.mem_of_getElem? hfound)
  refine ⟨?_, ?_⟩
  · rw [hm.slots_eq, Datum.bounds_int]
    exact ⟨Int.natCast_nonneg i, Int.ofNat_lt.2 (hcs.1 ▸ hi)⟩
  · rw [hm.channels_eq, Datum.bounds_int]
    exact hc

theorem Stands.covers (h : Stands slots channels ids x p) {m : Mac Unit}
    (hm : m.Member slots channels) {e : Int × Int} (he : e ∈ (Links.ofConfiguration x).entries) :
    m.Covers e.1 e.2 := by
  cases x with
  | none => exact absurd he List.not_mem_nil
  | some cs => exact covers_ofChannels hm (h.inRange cs rfl) he

/-- The devices are in step with their deployer. -/
theorem Stands.inStep (hids : ids.Nodup) (h : Stands slots channels ids x p) {d : LinkDeployer Nat}
    (hd : p.deployer = .links d) (hperm : d.macs.Perm ids)
    (hsized : ∀ i ∈ d.macs, (p.deviceAt i).IsSized) :
    (fleet d.macs (hperm.nodup_iff.2 hids) p.deviceAt hsized).InStep p.aside d p where
  macs_eq := rfl
  distinct := by
    rw [h.last_eq d hd]
    exact Links.distinct_ofConfiguration x
  covers i hi e he := by
    rw [h.last_eq d hd] at he
    exact h.covers (h.member (hperm.mem_iff.1 hi)) he
  roomy i hi := h.roomy d hd i (hperm.mem_iff.1 hi) _ (h.deviceAt_eq (hperm.mem_iff.1 hi))
  holds := {
    rest_eq := rfl
    links := fun i hi => by
      have hmem := hperm.mem_iff.1 hi
      have hholds := h.holds hmem
      rw [hd] at hholds
      have hd' := Links.distinct_ofConfiguration x
      refine ⟨(p.deviceAt i).links, h.deviceAt_eq hmem, ?_, ?_⟩
      · have hslots : (p.deviceAt i).links.slots.Perm (Links.ofConfiguration x).slots :=
          hholds.1.map _
        exact hslots.nodup_iff.2 hd'
      · funext s
        rw [h.last_eq d hd]
        exact hholds.1.channel?_eq hd' s }

/-- Devices in step with a deployer of links have the configuration that it deployed last. -/
theorem Stands.of_inStep (h : Stands slots channels ids x p) {d d' : LinkDeployer Nat}
    (hd : p.deployer = .links d) {macs : List Nat} (hmacs : macs.Nodup) (hperm : macs.Perm ids)
    {hsized : ∀ i ∈ macs, (p.deviceAt i).IsSized}
    {rest : ChannelHopping α × Deployer Nat × Sources ρ × Statistics}
    (hstep : (fleet macs hmacs p.deviceAt hsized).InStep rest d' q) {y : Option (List Int)}
    (hlast : d'.last = .ofConfiguration y) (hy : ∀ cs ∈ y, InRange slots channels cs) :
    Stands slots channels ids y { q with deployer := .links d' } where
  covered := by
    show d'.macs.Perm ids
    rw [hstep.macs_eq]
    exact hperm
  last_eq _ he := by
    cases he
    exact hlast
  inRange := hy
  device i hi := by
    obtain ⟨l, hl, hsame⟩ := haveLinks_of_inStep hstep i (hperm.mem_iff.2 hi)
    have hholds := h.holds hi
    rw [hd] at hholds
    rw [hlast] at hsame
    exact ⟨_, hl, { h.member hi with }, hsame, hholds.2⟩
  roomy _ he i hi m hm := by
    cases he
    obtain ⟨l, hl, -⟩ := haveLinks_of_inStep hstep i (hperm.mem_iff.2 hi)
    have hm' : q.macs[i]? = some m := hm
    rw [hl] at hm'
    cases hm'
    exact hstep.roomy i (hperm.mem_iff.2 hi)

theorem Stands.ends_deploy_links (hids : ids.Nodup) (h : Stands slots channels ids x p)
    {d : LinkDeployer Nat} (hd : p.deployer = .links d) {cs : List Int}
    (hcs : InRange slots channels cs) :
    Ends (deploy (Datum.ofInts cs)) p (Deploys slots channels ids x cs p) := by
  have hperm : d.macs.Perm ids := by
    have hc := h.covered
    rwa [hd] at hc
  have hsized : ∀ i ∈ d.macs, (p.deviceAt i).IsSized :=
    fun i hi => (h.member (hperm.mem_iff.1 hi)).sized
  have hstep := h.inStep hids hd hperm hsized
  have hcov : (fleet (ρ := ρ) (α := α) d.macs (hperm.nodup_iff.2 hids) p.deviceAt hsized
      ).CoversAll (IntConfiguration.row cs).links :=
    fun i hi e he => covers_ofChannels (h.member (hperm.mem_iff.1 hi)) hcs he
  obtain ⟨answer, d', t, calls, hrun, -, hstep', hout⟩ := hstep.deploy_eq_ok hcov
  have hlast : d'.last = .ofConfiguration (if answer then some cs else x) := by
    cases hout with
    | taken => rfl
    | givenUp => exact h.last_eq d hd
  have hrange : ∀ cs' ∈ if answer then some cs else x, InRange slots channels cs' := by
    intro cs' he
    split at he
    · cases he
      exact hcs
    · exact h.inRange cs' he
  have hends : Ends (Deployer.deploy macAccess (.channels (Datum.ofInts cs))) (p.deployer, p)
      fun b u => b = answer ∧ u = (.links d', t) := by
    rw [hd]
    exact ends_iff.2 ⟨_, _, hrun, rfl, rfl⟩
  unfold deploy
  rw [ends_beside]
  refine hends.mono ?_
  rintro _ _ ⟨rfl, rfl⟩
  exact {
    stands := h.of_inStep hd _ hperm hstep' hlast hrange
    mode_eq := by rw [hd]; rfl
    bareAt_eq := fun i hi => by
      obtain ⟨l, hl, -⟩ := haveLinks_of_inStep hstep' i (hperm.mem_iff.2 hi)
      show t.macs[i]?.map Mac.bare = p.macs[i]?.map Mac.bare
      rw [hl, h.deviceAt_eq hi]
      rfl
    remainder_eq := by
      show t.remainder = p.remainder
      exact remainder_eq_of_aside_eq hstep'.holds.rest_eq
    accepted := fun hunlimited => by
      refine hout.eq_true hstep.macs_eq fun i hi => ?_
      have hmem := hperm.mem_iff.1 hi
      exact hunlimited (by rw [hd]; rfl) i hmem _ (h.deviceAt_eq hmem) }

/-- A deployment of either kind. -/
theorem Stands.ends_deploy (hids : ids.Nodup) (h : Stands slots channels ids x p) {cs : List Int}
    (hcs : InRange slots channels cs) :
    Ends (deploy (Datum.ofInts cs)) p (Deploys slots channels ids x cs p) := by
  cases hd : p.deployer with
  | sequence d => exact h.ends_deploy_sequence hd hcs
  | links d => exact h.ends_deploy_links hids hd hcs

end Pan
end TschLearning
