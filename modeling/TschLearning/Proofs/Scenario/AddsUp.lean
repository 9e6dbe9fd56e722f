import TschLearning.Proofs.Scenario.Populated

/-! What is counted in a slot-selection scenario adds up. Every frame is sent in the slotframe that
it was requested in, in the slot that the scheduler has chosen there, so requests, transmissions,
successes and delays can be told from one another. -/

namespace TschLearning

namespace Star

variable {ρ : Type} {slots i n : Nat} {trace : List (Event ρ Float)} {left : List (Nat × Frame)}
  {s : Star ρ Float}

/-- A device and its scheduler after some slots: what was counted agrees with what was delivered,
and with what is in the queue. -/
structure AddsUp (slots i n : Nat) (trace : List (Event ρ Float)) (statistics : Statistics)
    (mac : Mac Nat) (a : SlotSelection Nat Float) : Prop where
  failures_eq : a.deployer.failures = 0
  queue_le : mac.queue.length ≤ 1
  -- what is in the queue was requested in this slotframe and will still be sent there
  pending : ∀ f ∈ mac.queue, f.asn = some (startOf slots n) ∧ ((n % slots : Nat) : Int) ≤ a.action
  queue_eq_nil : slots ∣ n → mac.queue = []
  attempts_eq : a.attempts = statistics.attempts.count (senderKey i) + mac.queue.length
  outcomes_eq : a.attempts = outcomes i trace + mac.queue.length
  successes_eq : a.successes = statistics.successes.count (senderKey i)
  successes_le : a.successes ≤ a.attempts
  delay_eq : (a.delay : Int) = slotsConfirmed i trace
  delay_le : a.delay ≤ (slots - 1) * a.successes
  -- what was sent was sent in the slot chosen in the slotframe that it was requested in
  punctual : ∀ e ∈ trace, Punctual slots i e

/-- A device that is in order between two slots. -/
theorem InOrder.addsUp (h : InOrder slots i n .resting (trace, left, s)) :
    ∃ mac a g, s.macs[i]? = some mac ∧ s.schedulers[i]? = some (a, g) ∧
      AddsUp slots i n trace s.statistics mac a := by
  obtain ⟨mac, a, g, hmac, hi, hfitted, hpaced, hcounted⟩ := h
  refine ⟨mac, a, g, hmac, hi, ?_⟩
  have hattempts : a.attempts = s.statistics.attempts.count (senderKey i) + mac.queue.length :=
    hcounted.attempts_eq
  have hsuccesses : a.successes = s.statistics.successes.count (senderKey i) :=
    hcounted.successes_eq
  refine {
    failures_eq := hfitted.failures_eq
    queue_le := ?_
    pending := ?_
    queue_eq_nil := ?_
    attempts_eq := hattempts
    outcomes_eq := hcounted.outcomes_eq
    successes_eq := hsuccesses
    successes_le := ?_
    delay_eq := hcounted.delay_eq
    delay_le := hcounted.delay_le
    punctual := hcounted.punctual }
  · rcases hpaced.queue with hqueue | ⟨f, hqueue, -⟩
    · rw [hqueue]
      exact Nat.zero_le 1
    · rw [hqueue]
      exact Nat.le_refl 1
  · intro f hf
    rcases hpaced.queue with hqueue | ⟨f', hqueue, hcurrent, -, -, hle⟩
    · rw [hqueue] at hf
      cases hf
    · rw [hqueue] at hf
      obtain rfl := List.mem_singleton.1 hf
      exact ⟨hcurrent.1, hle⟩
  · intro hdvd
    rcases hpaced.queue with hqueue | ⟨f, -, -, -, hwithin, -⟩
    · exact hqueue
    · exact absurd (Nat.mod_eq_zero_of_dvd hdvd) (Nat.ne_of_gt hwithin)
  · rw [hattempts, hsuccesses]
    exact Nat.le_add_right_of_le hcounted.count_le

end Star

namespace SlotSelectionScenario

open TschLearning.Star

variable {ρ : Type} [Generator ρ Float]

/-- In a slot-selection scenario of at least two nodes, with parameters that were checked and any
draws, no slot fails and what is counted of each sender adds up, after any number of slots for which
slot numbers can still be divided by. Only a scenario whose slots are too many to be gone through
cannot be made. -/
theorem runSlots_addsUp (hsound : Generator.Sound ρ) {v : ParameterInput}
    {params : Parameters Float} (hparams : Parameters.ofInput v = .ok params) {nodes slots : Nat}
    (hnodes : 2 ≤ nodes) (hslots : 1 ≤ slots) (source : ρ) {seeded : Nat → Except Fault ρ}
    (hseeded : ∀ i < nodes - 1, ∃ g, seeded i = .ok g) :
    (Datum.stepLimit < slots ∧
      prepared ⟨nodes - 1, .int slots, params⟩ source seeded = .error .outOfMemory) ∨
    ∃ net s, prepared ⟨nodes - 1, .int slots, params⟩ source seeded = .ok (net, s) ∧
      ∀ n < 2 ^ 1023, ∃ net' t trace left,
        Network.runSlots surroundings n (net, s) = .ok () (net', t) ∧
        Network.runSlots surroundings.watched.traced n (net, [], [], s)
          = .ok () (net', trace, left, t) ∧
        net'.asn = n ∧
        ∀ i < nodes - 1, ∃ mac a g, t.macs[i]? = some mac ∧ t.schedulers[i]? = some (a, g) ∧
          AddsUp slots i n trace t.statistics mac a := by
  by_cases hle : (slots : Int) ≤ Datum.stepLimit
  · right
    obtain ⟨s, hprepared, hs⟩ := prepared_eq_ok (c := ⟨nodes - 1, .int slots, params⟩) hsound rfl
      hslots hle (Parameters.anneals_of_ofInput hparams) source hseeded
    refine ⟨_, s, hprepared, fun n hn => ?_⟩
    have hmeets := (staged_allInOrder (ρ := ρ) hslots
      (quiet_wired (c := ⟨nodes - 1, .int slots, params⟩) rfl)).meets_runSlots n hs
      ((Nat.zero_add n).le.trans hn.le)
    obtain ⟨_, ⟨net', trace, left, t⟩, hrun, hnet, hend⟩ := Action.ends_iff.1 (Action.meets_false.1 hmeets)
    obtain rfl : net' = _ := hnet
    refine ⟨_, t, trace, left, Network.runSlots_of_watched _ hrun, hrun, Nat.zero_add n, ?_⟩
    intro i hi
    have horder := hend i hi
    rw [show (wired ⟨nodes - 1, .int slots, params⟩).asn + n = n from Nat.zero_add n] at horder
    exact horder.addsUp
  · have hlt := Int.not_le.1 hle
    exact .inl ⟨hlt, prepared_eq_error rfl hlt (by show 0 < nodes - 1; omega) source seeded⟩

def eager : ParameterInput := ParameterInput.defaults.override [(.packetProbability, .float 1.0)]

theorem exists_ofInput_eager : ∃ params, Parameters.ofInput eager = .ok params := by
  have hok : (Parameters.ofInput eager).toBool = true := by decide +kernel
  cases hparams : Parameters.ofInput eager with
  | ok params => exact ⟨params, rfl⟩
  | error f =>
    rw [hparams] at hok
    cases hok

/-- Two senders with two slots, which are bound to collide now and then, over five slots. -/
theorem runSlots_addsUp_twoSenders :
    ∃ (params : Parameters Float) (net net' : Network Nat Unit Float) (s t : Star Permuted Float)
        (trace : List (Event Permuted Float)) (left : List (Nat × Frame)),
      Parameters.ofInput eager = .ok params ∧
      prepared ⟨2, .int (2 : Nat), params⟩ (Permuted.ofWords 0 0) (fun i => .ok (.ofWords i 1))
        = .ok (net, s) ∧
      Network.runSlots surroundings 5 (net, s) = .ok () (net', t) ∧
      Network.runSlots surroundings.watched.traced 5 (net, [], [], s)
        = .ok () (net', trace, left, t) ∧
      ∀ i < 2, ∃ mac a g, t.macs[i]? = some mac ∧ t.schedulers[i]? = some (a, g) ∧
        AddsUp 2 i 5 trace t.statistics mac a := by
  obtain ⟨params, hparams⟩ := exists_ofInput_eager
  have hseeded : ∀ i < 3 - 1, ∃ g, (fun i => .ok (.ofWords i 1) : Nat → Except Fault Permuted) i
      = .ok g := fun i _ => ⟨_, rfl⟩
  have hsmall : ¬Datum.stepLimit < (2 : Nat) := by decide
  obtain ⟨hlarge, -⟩ | ⟨net, s, hprepared, hruns⟩ :=
    runSlots_addsUp Permuted.sound hparams (show 2 ≤ 3 by decide) (show 1 ≤ 2 by decide)
      (Permuted.ofWords 0 0) hseeded
  · exact absurd hlarge hsmall
  · obtain ⟨net', t, trace, left, hrun, hwatched, -, hall⟩ := hruns 5 (by decide +kernel)
    exact ⟨params, net, net', s, t, trace, left, hparams, hprepared, hrun, hwatched, hall⟩

end SlotSelectionScenario
end TschLearning
