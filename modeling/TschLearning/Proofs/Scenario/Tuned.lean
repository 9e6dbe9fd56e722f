import TschLearning.Proofs.Deployer.Atomic
import TschLearning.Proofs.Mac.Outside
import TschLearning.Proofs.Scenario.Relinked

/-! A device of a star and the deployer of its scheduler, which has no other device. Without a limit
on the links every deployment is accepted, and it touches nothing but the links of the device. -/

namespace TschLearning

open TschLearning.Action

namespace Fleet

variable {μ κ σ ν : Type} [DecidableEq μ] [Journal σ] {f : Fleet μ κ σ ν} {rest : ν}
  {d : LinkDeployer μ} {s : σ}

theorem InStep.ends_deploy_plain (h : f.InStep rest d s) {links : Links} (hl : links.Distinct)
    (hcov : f.CoversAll links) :
    Ends (LinkDeployer.deploy f.access links) (d, s) fun answer t =>
      f.InStep rest t.1 t.2 ∧ ∃ made, f.Outcome d links answer t.1 made := by
  have hplain := (LinkDeployer.agree_deploy f.access links).ends
    (s := (d, [], s)) (t := (d, s)) ⟨rfl, rfl⟩ (h.ends_deploy hl hcov [])
  refine hplain.mono ?_
  rintro _ ⟨_, _⟩ ⟨answer, ⟨d', calls, t⟩, -, ⟨hstep, made, -, hout⟩, rfl, rfl, rfl⟩
  exact ⟨hstep, made, hout⟩

end Fleet

namespace Star

variable {ρ α : Type} {s t : Star ρ α} {i : Nat} {mac : Mac Nat} {d : LinkDeployer Nat}

/-- What a star has beside its devices and its journal. -/
def aside (s : Star ρ α) : Array (SlotSelection Nat α × ρ) × ρ × Statistics :=
  (s.schedulers, s.source, s.statistics)

theorem lawful_shelf : (shelf : Shelf Nat (Mac Nat) (Star ρ α)).Lawful aside where
  get?_put_self h _ := Array.getElem?_setIfInBounds_self_of_lt (Array.getElem?_eq_some_iff.1 h).1
  get?_put_of_ne hne _ _ := Array.getElem?_setIfInBounds_ne hne.symm
  get?_enter _ _ _ := rfl
  rest_put _ _ _ := rfl
  rest_enter _ _ := rfl
  obstacle?_eq_none _ _ := rfl

theorem put_put (i : Nat) (mac mac' : Mac Nat) (s : Star ρ α) :
    shelf.put i mac' (shelf.put i mac s) = shelf.put i mac' s :=
  congrArg (fun macs => { s with macs }) (Array.setIfInBounds_setIfInBounds ..)

def fleet (i : Nat) (mac : Mac Nat) (hsized : mac.IsSized) :
    Fleet Nat Nat (ρ × Star ρ α) (ρ × Array (SlotSelection Nat α × ρ) × ρ × Statistics) where
  shelf := shelf.outside
  rest p := (p.1, p.2.aside)
  lawful := lawful_shelf.outside
  labels i := Mac.labelOf (.text (senderName i))
  ids := [i]
  nodup_ids := List.nodup_singleton i
  mac _ := mac
  sized _ _ := hsized

theorem access_fleet [Generator ρ α] (hsized : mac.IsSized) :
    (fleet (ρ := ρ) (α := α) i mac hsized).access = needs.macs :=
  (Mac.outside_access _ _).symm

/-- A device with any number of links, which are those that the deployer has deployed last. -/
structure Tuned (i : Nat) (mac : Mac Nat) (d : LinkDeployer Nat) : Prop where
  macs_eq : d.macs = [i]
  capacity_eq : mac.capacity = none
  distinct_links : mac.links.Distinct
  distinct_last : d.last.Distinct
  channel?_eq : mac.links.channel? = d.last.channel?
  covers : ∀ e ∈ d.last.entries, mac.Covers e.1 e.2

theorem Tuned.isSized (h : Tuned i mac d) : mac.IsSized := by
  intro c hc
  rw [h.capacity_eq] at hc
  cases hc

theorem Tuned.inStep (h : Tuned i mac d) (hmac : s.macs[i]? = some mac) (g : ρ) :
    (fleet i mac h.isSized).InStep (g, s.aside) d (g, s) where
  macs_eq := h.macs_eq
  distinct := h.distinct_last
  covers _ _ := h.covers
  roomy _ _ := Mac.hasRoom_of_capacity_eq_none h.capacity_eq _
  holds := {
    rest_eq := rfl
    links := fun j hj => by
      obtain rfl := List.mem_singleton.1 hj
      exact ⟨mac.links, hmac, h.distinct_links, h.channel?_eq⟩ }

/-- Stars that differ in the journal only. -/
def Noted (s t : Star ρ α) : Prop := ∃ notes, t = { s with notes }

theorem noted_put (hmacs : ∀ j, j ≠ i → t.macs[j]? = s.macs[j]?) (haside : t.aside = s.aside)
    (hmac : s.macs[i]? = some mac) {mac' : Mac Nat} (hmac' : t.macs[i]? = some mac') :
    Noted (shelf.put i mac' s) t := by
  obtain ⟨macs, schedulers, source, statistics, notes⟩ := t
  simp only [aside, Prod.mk.injEq] at haside
  obtain ⟨rfl, rfl, rfl⟩ := haside
  have he : macs = s.macs.setIfInBounds i mac' := by
    refine Array.ext_getElem? fun j => ?_
    by_cases hj : i = j
    · subst hj
      rw [Array.getElem?_setIfInBounds_self_of_lt (Array.getElem?_eq_some_iff.1 hmac).1]
      exact hmac'
    · rw [Array.getElem?_setIfInBounds_ne hj]
      exact hmacs j (Ne.symm hj)
  subst he
  exact ⟨notes, rfl⟩

variable [Generator ρ α]

theorem Tuned.ends_deploy (h : Tuned i mac d) (hmac : s.macs[i]? = some mac) (g : ρ) {links : Links}
    (hl : links.Distinct) (hcov : ∀ e ∈ links.entries, mac.Covers e.1 e.2) :
    Ends (LinkDeployer.deploy (needs (ρ := ρ) (α := α)).macs links) (d, g, s) fun answer p =>
      answer = true ∧ ∃ l t, p = ({ d with last := links }, g, t) ∧
        Tuned i (mac.withLinks l) { d with last := links } ∧
        Noted (shelf.put i (mac.withLinks l) s) t := by
  have hkeeps := keeps_deploy (P := fun t => ∀ j, j ≠ i → t.macs[j]? = s.macs[j]?) d.macs
    (fun n t ht => ht) (fun m hm mac l t ht hm' j hj => by
      rw [h.macs_eq] at hm
      obtain rfl := List.mem_singleton.1 hm
      exact (Array.getElem?_setIfInBounds_ne (Ne.symm hj)).trans (ht j hj)) g links
  have hends := (h.inStep hmac g).ends_deploy_plain hl fun _ _ => hcov
  rw [access_fleet] at hends
  refine (hkeeps.ends ⟨rfl, rfl, fun _ _ => rfl⟩ hends).mono ?_
  rintro answer ⟨d', g', t⟩ ⟨⟨hstep, made, hout⟩, -, rfl, hothers⟩
  have htrue := hout.eq_true h.macs_eq fun _ _ => h.capacity_eq
  subst htrue
  cases hout
  obtain ⟨l, hget, hdistinct, hchannel⟩ := hstep.holds.links i List.mem_cons_self
  refine ⟨rfl, l, t, rfl, ⟨h.macs_eq, h.capacity_eq, hdistinct, hl, hchannel, hcov⟩, ?_⟩
  exact noted_put hothers (congrArg Prod.snd hstep.holds.rest_eq) hmac hget

end Star
end TschLearning
