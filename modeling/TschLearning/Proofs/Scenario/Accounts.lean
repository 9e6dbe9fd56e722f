import TschLearning.Proofs.Scenario.Relinked

/-! What the schedulers of a star keep account of: the slot reached, the request that is still to be
confirmed and the slots waited for confirmations. Whatever else an event does, it changes these in
the one way that it is there for. -/

namespace TschLearning

/-- A scheduler apart from what it learns and where its link is. -/
def SlotSelection.account {μ α : Type} (a : SlotSelection μ α) :
    μ × Option Nat × Option Nat × Nat :=
  (a.mac, a.asn, a.requested, a.delay)

namespace Star

open TschLearning.Action SlotSelection

variable {ρ α : Type} [Generator ρ α] [Arith α] {s : Star ρ α} {a : SlotSelection Nat α}
  {k asn : Nat}

/-- A scheduler with an account, beside a star in which only links have changed. -/
def Abiding (account : Nat × Option Nat × Option Nat × Nat) (s : Star ρ α)
    (a : SlotSelection Nat α) (p : ρ × Star ρ α) : Prop :=
  a.account = account ∧ Relinked s p.2

def Enqueued (account : Nat × Option Nat × Option Nat × Nat) (s : Star ρ α)
    (a : SlotSelection Nat α) (p : ρ × Star ρ α) : Prop :=
  a.account = account ∧ ∃ t mac destination size, Relinked s t ∧ t.macs[a.mac]? = some mac ∧
    p.2 = shelf.put a.mac (mac.request destination size) t

omit [Arith α] in
theorem blind_abiding (account : Nat × Option Nat × Option Nat × Nat) (s : Star ρ α) :
    Blind True needs (Abiding account s) where
  kin := by
    rintro a _ p ⟨ha, hp⟩ ⟨_, _, _, _, rfl, -⟩
    exact ⟨ha, hp⟩
  note n hp := ⟨rfl, hp.1, hp.2.enter n⟩
  uniform hp := Draws.meets_uniform _ _ fun _ _ => hp

theorem moves_abiding (account : Nat × Option Nat × Option Nat × Nat) (s : Star ρ α) :
    Blind.Moves True needs (Abiding account s) (Abiding account s) := by
  rintro a ⟨g, t⟩ slot ⟨ha, ht⟩ -
  unfold move
  simp only [meets_bind, meets_part]
  refine meets_ofExcept_of (.inr trivial) fun links _ => ?_
  have hdeploy := keeps_deploy (P := Relinked s) a.deployer.macs
    (fun n u hu => hu.enter n) (fun m _ mac l u hu hmac => hu.put hmac l) g links
  rw [meets_within]
  refine (hdeploy.meets (s := (a.deployer, g, t)) ⟨rfl, rfl, ht⟩).mono ?_
  rintro accepted ⟨d, h, u⟩ ⟨-, -, rfl, hu⟩
  cases accepted with
  | true => exact ⟨ha, hu⟩
  | false =>
    have hkept : Abiding account s { a with deployer := d } (h, u) := ⟨ha, hu⟩
    refine ((blind_abiding account s).meets_remark hkept (.slotKept a.action)).mono ?_
    rintro _ ⟨_, v⟩ ⟨rfl, hv⟩
    exact hv

def askingAccount (account : Nat × Option Nat × Option Nat × Nat) :
    Nat × Option Nat × Option Nat × Nat :=
  (account.1, account.2.1, account.2.1, account.2.2.2)

omit [Arith α] in
theorem requests_abiding (account : Nat × Option Nat × Option Nat × Nat) (s : Star ρ α) :
    Blind.Requests True needs (Abiding account s) (Enqueued (askingAccount account) s) := by
  rintro a ⟨g, t⟩ ⟨rfl, ht⟩
  show Meets True (Action.outside (shelf.update a.mac fun mac =>
    .ok ((), mac.request a.destination (.int a.params.packetSize)))) (g, t) _
  rw [meets_outside]
  refine shelf.meets_update ?_ (fun _ => trivial) fun _ _ _ _ => trivial
  rintro mac _ _ hmac ⟨⟩
  exact ⟨rfl, t, mac, _, _, ht, hmac, rfl⟩

theorem meets_boundary :
    Meets True ((surroundings (ρ := ρ) (α := α)).boundary k asn) s fun _ t =>
      ∃ a g b h u, s.schedulers[k]? = some (a, g) ∧ t = schedulerShelf.put k (b, h) u ∧
        (Abiding ({ a with asn := some asn }).account s b (h, u) ∨
          Enqueued (asking { a with asn := some asn }).account s b (h, u)) := by
  refine meets_inScheduler (fun a g hk => ?_) fun _ => trivial
  have hblind := blind_abiding ({ a with asn := some asn }).account s
  refine (hblind.meets_onSlotBoundary hblind (fun _ => moves_abiding _ s)
    (fun _ => requests_abiding _ s) (.inr trivial) (.inr trivial) ⟨rfl, Relinked.refl s⟩).mono ?_
  rintro _ ⟨b, h, u⟩ hp
  refine ⟨a, g, b, h, u, hk, rfl, ?_⟩
  split at hp
  · exact hp
  · exact .inl hp

theorem meets_outcome (slot : Datum) (channel : Int) (success : Bool) :
    Meets True ((surroundings (ρ := ρ) (α := α)).outcome k slot channel success) s fun _ t =>
      ∃ a g b h u, s.schedulers[k]? = some (a, g) ∧ t = schedulerShelf.put k (b, h) u ∧
        Abiding (a.counting success).account s b (h, u) := by
  refine meets_inScheduler (fun a g hk => ?_) fun _ => trivial
  have hblind := blind_abiding (a.counting success).account s
  refine (hblind.meets_onTransmissionOutcome (.inr trivial) ⟨rfl, Relinked.refl s⟩).mono ?_
  rintro _ ⟨b, h, u⟩ hp
  exact ⟨a, g, b, h, u, hk, rfl, hp⟩

theorem meets_overheard (slot : Datum) :
    Meets True ((surroundings (ρ := ρ) (α := α)).overheard k slot) s fun _ t =>
      ∃ a g b h u, s.schedulers[k]? = some (a, g) ∧ t = schedulerShelf.put k (b, h) u ∧
        Abiding a.account s b (h, u) := by
  refine meets_inScheduler (fun a g hk => ?_) fun _ => trivial
  refine ((blind_abiding a.account s).meets_onOverheardActivity (.inr trivial)
    ⟨rfl, Relinked.refl s⟩).mono ?_
  rintro _ ⟨b, h, u⟩ hp
  exact ⟨a, g, b, h, u, hk, rfl, hp⟩

end Star
end TschLearning
