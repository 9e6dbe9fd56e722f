import TschLearning.Draws.Scripted
import TschLearning.Proofs.Links.Edits
import TschLearning.Proofs.Scenario.Booked
import TschLearning.Proofs.Scheduler.Fresh

/-! What a slot scheduler makes of the time that its frames wait. It is right about a frame exactly
if no other one is behind it in the queue, and never counts too much. -/

namespace TschLearning
namespace Star

open TschLearning.Action
open Function (update_self update_of_ne)

variable {ρ α : Type} {sinks : Nat → Option Nat} {names : Nat → Datum} {i j k m asn : Nat}
  {s t : Star ρ α} {mac mac' : Mac Nat} {stage : Nat → Stage} {y : Stage}
  {trace : List (Event ρ α)} {left left' : List (Nat × Frame)} {e : Event ρ α} {w : Watched ρ α}
  {p : List (Event ρ α) × Watched ρ α}

/-- The account of the scheduler is balanced with what was written down. -/
def Timely (sinks : Nat → Option Nat) (names : Nat → Datum) (i k asn : Nat)
    (stage : Nat → Stage) (p : List (Event ρ α) × Watched ρ α) : Prop :=
  Booked sinks names i k asn (stage i) (waits i k p.1) (Prompt i k p.1) p.2

/-- A device and its scheduler, which belong to each other alone and have not requested anything
yet. -/
structure Paired (i k : Nat) (s : Star ρ α) : Prop where
  device : ∃ mac, s.macs[i]? = some mac ∧ mac.sink = some k ∧ mac.queue = []
  scheduler : ∃ a g, s.schedulers[k]? = some (a, g) ∧ a.mac = i ∧ a.delay = 0
  only_device : ∀ (j : Nat) mac, s.macs[j]? = some mac → mac.sink = some k → j = i
  only_scheduler : ∀ (j : Nat) a g, s.schedulers[j]? = some (a, g) → a.mac = i → j = k

/-- At the start nothing has been waited for. -/
theorem Paired.timely (hs : Paired i k s) (asn : Nat) :
    Timely (fun m => s.macs[m]?.bind Mac.sink) (fun m => (s.macs[m]?.map Mac.name).getD .null) i k
      asn (fun _ => .resting) ([], [], s) := by
  obtain ⟨mac, hmac, -, hqueue⟩ := hs.device
  obtain ⟨a, g, hk, ha, hdelay⟩ := hs.scheduler
  refine ⟨⟨fun m mac hm => ?_, fun j a g hjk hj ha => hjk (hs.only_scheduler j a g hj ha)⟩,
    mac, a, g, hmac, hk, ha, nofun, nofun, [], [], rfl, ?_, ?_⟩
  · simp only [hm, Option.bind_some, Option.map_some, Option.getD_some, and_self]
  · rw [hqueue]
    rfl
  · have hprompt : Prompt i k ([] : List (Event ρ α)) = True :=
      eq_true fun e he => absurd he List.not_mem_nil
    show Balanced asn [] a.requested a.delay 0 (Prompt i k ([] : List (Event ρ α)))
    rw [hdelay, hprompt]
    exact Balanced.empty asn a.requested

namespace Timely

theorem concat
    (hs : Booked sinks names i k asn (stage i)
      (waits i k trace + if e.delivery.Confirms k then wait i e.before else 0)
      (Prompt i k trace ∧
        (e.delivery.Confirms k → ∀ mac, e.before.2.macs[i]? = some mac → mac.queue = [])) w) :
    Timely sinks names i k asn stage (trace ++ [e], w) := by
  unfold Timely waits
  rwa [overSuccesses_concat, prompt_concat]

/-- A delivery that tells the scheduler of no success. -/
theorem concat_of_not (he : ¬e.delivery.Confirms k)
    (hs : Booked sinks names i k asn (stage i) (waits i k trace) (Prompt i k trace) w) :
    Timely sinks names i k asn stage (trace ++ [e], w) := by
  refine concat ?_
  rw [if_neg he, Int.add_zero]
  simpa only [he, false_implies, and_true] using hs

theorem update (hs : Timely sinks names i k asn stage p)
    (hown : m = i → ∀ mac, ∀ a : SlotSelection Nat α,
      Timed i asn (stage m) p.2.1 mac a (waits i k p.1) (Prompt i k p.1) →
        Timed i asn y p.2.1 mac a (waits i k p.1) (Prompt i k p.1)) :
    Timely sinks names i k asn (Function.update stage m y) p := by
  refine Booked.turn hs fun mac a htimed => ?_
  by_cases hmi : m = i
  · subst hmi
    rw [update_self]
    exact hown rfl mac a htimed
  · rwa [update_of_ne (Ne.symm hmi)]

theorem put (hs : Timely sinks names i k asn stage (trace, left, s)) (hmac : s.macs[m]? = some mac)
    (hsink : mac'.sink = mac.sink) (hname : mac'.name = mac.name)
    (hown : m = i → ∀ a : SlotSelection Nat α,
      Timed i asn (stage m) left mac a (waits i k trace) (Prompt i k trace) →
        Timed i asn y left' mac' a (waits i k trace) (Prompt i k trace))
    (hleft : m ≠ i → left'.lookup i = left.lookup i) :
    Timely sinks names i k asn (Function.update stage m y) (trace, left', shelf.put m mac' s) := by
  refine Booked.put hs hmac hsink hname ?_ fun hmi =>
    ⟨update_of_ne (Ne.symm hmi) .., hleft hmi⟩
  rintro rfl a htimed
  rw [update_self]
  exact hown rfl a htimed

variable [Generator ρ α] [Arith α]

theorem announce (hs : Timely sinks names i k asn stage p) (hstage : stage m = .resting)
    (hmac : p.2.2.macs[m]? = some mac) :
    Timely sinks names i k asn (Function.update stage m .announced)
      (surroundings.watched.traced.macs.put m { mac with asn := some asn } p) := by
  obtain ⟨trace, left, s⟩ := p
  have hput : shelf.watched.put m { mac with asn := some asn } (left, s)
      = (left, shelf.put m { mac with asn := some asn } s) :=
    Shelf.watched_put_of_queue_eq hmac rfl
  show Timely sinks names i k asn _ (trace, shelf.watched.put m { mac with asn := some asn } _)
  rw [hput]
  refine hs.put hmac rfl rfl (fun _ a htimed => ?_) fun _ => rfl
  rw [hstage] at htimed
  exact htimed.announce

theorem meets_begin (hs : Timely sinks names i k asn stage p) (hsink : sinks i = some k)
    (hstage : j = k → stage i = .announced) :
    Meets True (surroundings.watched.traced.boundary j asn) p fun _ =>
      Timely sinks names i k asn fun m => if sinks m = some j then .begun else stage m := by
  obtain ⟨trace, left, s⟩ := p
  refine Surroundings.meets_watched_delivering.2 ?_
  refine meets_boundary.mono ?_
  rintro _ t ⟨a, g, b, h, u, hj, rfl, hb⟩
  refine concat_of_not id ?_
  by_cases hjk : j = k
  · subst hjk
    have hbooked : Booked sinks names i j asn (stage i) _ _ _ := hs
    rw [hstage rfl] at hbooked
    rw [if_pos hsink]
    exact hbooked.reach hj hb
  · rw [if_neg (by rw [hsink, Option.some.injEq]; exact Ne.symm hjk)]
    rcases hb with hb | hb
    · exact Booked.step hs hj hjk (.inl hb) rfl
    · exact Booked.step hs hj hjk (.inr hb) rfl

theorem idle (hs : Timely sinks names i k asn stage p) (hsink : sinks i = some k)
    (hstage : stage m = Stage.ready (sinks m)) (hmac : p.2.2.macs[m]? = some mac) :
    Timely sinks names i k asn (Function.update stage m .silent)
      (surroundings.watched.traced.macs.put m mac p) := by
  obtain ⟨trace, left, s⟩ := p
  show Timely sinks names i k asn _ (trace, shelf.watched.put m mac (left, s))
  rw [Shelf.watched_put_of_queue_eq (show shelf.get? m s = some mac from hmac) rfl]
  refine hs.put hmac rfl rfl ?_ fun _ => rfl
  rintro rfl a htimed
  rw [hstage, hsink] at htimed
  exact htimed.next rfl rfl rfl rfl

theorem send (hs : Timely sinks names i k asn stage p) (hsink : sinks i = some k)
    (hstage : stage m = Stage.ready (sinks m)) (hmac : p.2.2.macs[m]? = some mac) {f : Frame}
    {rest : List Frame} (hqueue : mac.queue = f :: rest) (channel : Int) :
    Timely sinks names i k asn (Function.update stage m (.sent channel))
      (surroundings.watched.traced.macs.put m { mac with queue := rest } p) := by
  obtain ⟨trace, left, s⟩ := p
  show Timely sinks names i k asn _ (trace, shelf.watched.put m { mac with queue := rest } (left, s))
  rw [Shelf.watched_put_of_queue_cons (show shelf.get? m s = some mac from hmac) hqueue rfl]
  refine hs.put hmac rfl rfl ?_ fun hmi => ?_
  · rintro rfl a htimed
    rw [hstage, hsink] at htimed
    exact htimed.send hqueue channel
  · rw [lookup_cons_ite, if_neg (Ne.symm hmi)]

theorem meets_settle (hs : Timely sinks names i k asn stage p) {channel : Int}
    (hstage : stage m = .sent channel) (hjm : j = k ↔ m = i) (slot : Datum) (success : Bool) :
    Meets True (surroundings.watched.traced.outcome j slot channel success) p fun _ =>
      Timely sinks names i k asn (Function.update stage m (.told channel success)) := by
  obtain ⟨trace, left, s⟩ := p
  refine Surroundings.meets_watched_delivering.2 ?_
  refine (meets_outcome slot channel success).mono ?_
  rintro _ t ⟨a, g, b, h, u, hj, rfl, hb⟩
  by_cases hjk : j = k
  · obtain rfl := hjm.1 hjk
    subst hjk
    have hbooked : Booked sinks names m j asn (stage m) _ _ _ := hs
    rw [hstage] at hbooked
    refine concat ?_
    rw [update_self]
    have hconfirms : (Delivery.outcome j slot channel success :
        Delivery Nat Nat Unit).Confirms j ↔ success = true :=
      ⟨fun h => h.2, fun h => ⟨rfl, h⟩⟩
    simp only [hconfirms]
    exact hbooked.settle hj hb
  · refine concat_of_not (fun h => hjk h.1) ?_
    rw [update_of_ne (Ne.symm fun hmi => hjk (hjm.2 hmi))]
    exact Booked.step hs hj hjk (.inl hb) (SlotSelection.mac_counting a success)

theorem meets_observe (hs : Timely sinks names i k asn stage p) (r : TransmissionRecord Nat) :
    Meets True (surroundings.watched.traced.observe () r) p fun _ =>
      Timely sinks names i k asn stage := by
  obtain ⟨trace, left, s⟩ := p
  refine Surroundings.meets_watched_delivering.2 ?_
  unfold surroundings
  simp only [meets_bind, meets_get]
  refine meets_ofExcept_of (.inr trivial) fun statistics _ => ?_
  exact concat_of_not id (Booked.of_eq hs rfl rfl)

theorem meets_hear (hs : Timely sinks names i k asn stage p) (j : Nat) (slot : Datum) :
    Meets True (surroundings.watched.traced.overheard j slot) p fun _ =>
      Timely sinks names i k asn stage := by
  obtain ⟨trace, left, s⟩ := p
  refine Surroundings.meets_watched_delivering.2 ?_
  refine (meets_overheard slot).mono ?_
  rintro _ t ⟨a, g, b, h, u, hj, rfl, hb⟩
  refine concat_of_not id ?_
  by_cases hjk : j = k
  · subst hjk
    exact Booked.own hs hj hb rfl fun _ l _ htimed => htimed.relink hb.1 l
  · exact Booked.step hs hj hjk (.inl hb) rfl

omit [Generator ρ α] [Arith α] in
theorem enter (hs : Timely sinks names i k asn stage p) (n : Note) :
    Timely sinks names i k asn stage (Journal.enter n p) :=
  Booked.of_eq hs rfl rfl

end Timely

/-! ### Runs -/

variable [Generator ρ α] [Arith α] {net : Network Nat Unit α}

/-- Every event of a slot keeps the account balanced. -/
theorem staged_timely (sinks : Nat → Option Nat) (names : Nat → Datum) (last : Nat)
    (hnodup : net.macs.Nodup) (htraffic : ∃ q, net.traffic = .ok q ∧ Arith.lt 0 q = false)
    (hi : i ∈ net.macs) (hsink : sinks i = some k) (hsole : ∀ j, sinks j = some k → j = i) :
    Network.Staged True (surroundings (ρ := ρ) (α := α)).watched.traced net sinks names last
      (Timely sinks names i k) where
  nodup := hnodup
  traffic := htraffic
  slots _ := .inr trivial
  device {asn stage p m} hs _ := ⟨fun _ => trivial, fun mac hmac => hs.1.devices m mac hmac⟩
  announce hs _ hstage hmac := hs.announce hstage hmac
  boundary hs _ _ hstage := hs.meets_begin hsink fun hjk => hstage i hi (hjk ▸ hsink)
  channel _ _ _ _ := .inr trivial
  pass hs _ hstage _ _ _ := by
    refine hs.update ?_
    rintro rfl mac a htimed
    rw [hstage, hsink] at htimed
    exact htimed.next rfl rfl rfl rfl
  idle hs _ hstage hmac _ := hs.idle hsink hstage hmac
  send hs _ hstage hmac _ _ hqueue := hs.send hsink hstage hmac hqueue _
  note n hs := (meets_note rfl).2 (hs.enter n)
  disturbed {asn stage p m channel} hs _ _ := by
    obtain ⟨trace, left, s⟩ := p
    refine Interference.meets_disturbed (Surroundings.meets_watched_uniform.2 ?_) (.inr trivial)
    exact Draws.meets_uniform _ _ fun _ _ => Booked.of_eq hs rfl rfl
  outcome {asn stage p m channel slot j} success hs _ hstage _ hj := by
    refine hs.meets_settle hstage ⟨?_, ?_⟩ slot success
    · rintro rfl
      exact hsole m hj
    · rintro rfl
      exact Option.some.inj (hj.symm.trans hsink)
  unheard _ hs _ _ hnone := by
    refine hs.update ?_
    rintro rfl
    cases hnone.symm.trans hsink
  record {asn stage p r} text hs _ _ _ _ hstage := by
    refine (Notifier.meets_trigger (P := Timely sinks names i k asn stage) _ _ ?_ ?_ hs).mono ?_
    · exact fun n p hs => (meets_note rfl).2 (hs.enter n)
    · exact fun _ p hs => hs.meets_observe r
    · intro _ p hs
      refine hs.update ?_
      rintro rfl mac a htimed
      rw [hstage] at htimed
      exact htimed.next rfl rfl rfl rfl
  overheard hs _ _ _ _ := hs.meets_hear _ _
  passed {asn stage p} hs hstage := by
    refine Booked.turn hs fun _ a htimed => ?_
    rcases hstage i hi with hi | hi
    · rw [hi] at htimed
      exact htimed.pass rfl rfl
    · rw [hi] at htimed
      exact htimed.pass rfl rfl

/-- After any run, what a scheduler takes for the delay of its confirmed frames is not above the
slots that they have really waited, and it is right exactly if each of them was the last one in the
queue when it was confirmed. -/
theorem delay_eq_waits_iff (hnodup : net.macs.Nodup)
    (htraffic : ∃ q, net.traffic = .ok q ∧ Arith.lt 0 q = false) (hi : i ∈ net.macs)
    (hs : Paired i k s) {n : Nat} {net' : Network Nat Unit α}
    (hrun : Network.runSlots surroundings n (net, s) = .ok () (net', t)) :
    ∃ trace left a g,
      Network.runSlots surroundings.watched.traced n (net, [], [], s)
        = .ok () (net', trace, left, t) ∧
      t.schedulers[k]? = some (a, g) ∧ (a.delay : Int) ≤ waits i k trace ∧
      ((a.delay : Int) = waits i k trace ↔ Prompt i k trace) := by
  obtain ⟨trace, left, hwatched⟩ := Network.watched_of_runSlots surroundings hrun
  obtain ⟨mac, hmac, hsink, -⟩ := hs.device
  have hsole : ∀ j, s.macs[j]?.bind Mac.sink = some k → j = i := by
    intro j hj
    obtain ⟨mac, hmac, hsink⟩ := Option.bind_eq_some_iff.1 hj
    exact hs.only_device j mac hmac hsink
  have hstaged := staged_timely (ρ := ρ) (fun m => s.macs[m]?.bind Mac.sink)
    (fun m => (s.macs[m]?.map Mac.name).getD .null) (net.asn + n) hnodup htraffic hi
    (by simp only [hmac, Option.bind_some, hsink]) hsole
  have hmeets := (hstaged.meets_runSlots n (hs.timely net.asn) (Nat.le_refl _)).post hwatched
  obtain ⟨-, -, mac, a, g, -, hk, htimed⟩ := hmeets
  obtain ⟨_, _, -, -, hbalanced⟩ := htimed.balanced
  exact ⟨trace, left, a, g, hwatched, hk, hbalanced.delay_le, hbalanced.delay_eq_iff⟩

/-- Two devices and two slots. The first device may transmit in the second slot only, and its
scheduler asks for a frame in every slotframe. It chooses the slot that is the quietest, and the
second device, which has no scheduler, has a frame for the first one. -/
def late : Network Nat Unit Float × Star Scripted Float where
  fst :=
    { slots := .int 2, channels := .int 1, interference := ⟨[0]⟩, slotDuration := .ok slotLength
      traffic := .ok 0, macs := [0, 1], asn := 0, started := false
      observers := .create (.text "transmission") (possessive Network.ownerLabel) }
  snd :=
    { macs := #[
        { name := .text "a", slots := .int 2, channels := .int 1, owned := [1], capacity := none
          links := .empty, sequence := none, queue := [], sink := some 0, asn := none },
        { name := .text "b", slots := .int 2, channels := .int 1, owned := [0, 1], capacity := none
          links := Links.empty.insert 0 0, sequence := none
          queue := [⟨.int 0, .int 10, none⟩], sink := none, asn := none }]
      schedulers := #[({
          params := { Parameters.level (1 : Float) 0 with epsilonScale := 10000 }, node := .int 1
          destination := .int 0, channelOffset := .int 0, mac := 0, voice := .ofModule
          table := Grid.empty 2 1 0, peaking := ⟨[0, 0]⟩, epsilon := 1
          activation := ⟨.int 0, 0, true⟩, deployer := .create [0], action := 0, asn := none
          requested := none, successes := 0, attempts := 0, delay := 0 }, ⟨#[0.5], 0⟩)]
      source := ⟨#[0.5], 0⟩, statistics := .empty, notes := [] }

theorem paired_late : Paired 0 0 late.2 where
  device := ⟨_, rfl, rfl, rfl⟩
  scheduler := ⟨_, _, rfl, rfl, rfl⟩
  only_device j mac h hsink := by
    match j with
    | 0 => rfl
    | 1 =>
      obtain rfl := Option.some.inj h
      cases hsink
    | j + 2 => simp [late] at h
  only_scheduler j a g h _ := by
    match j with
    | 0 => rfl
    | j + 1 => simp [late] at h

theorem delay_eq_waits_iff_late : ∃ net' t trace left a g,
    Network.runSlots surroundings 4 late = .ok () (net', t) ∧
    Network.runSlots surroundings.watched.traced 4 (late.1, [], [], late.2)
      = .ok () (net', trace, left, t) ∧
    t.schedulers[0]? = some (a, g) ∧ (a.delay : Int) ≤ waits 0 0 trace ∧
    ((a.delay : Int) = waits 0 0 trace ↔ Prompt 0 0 trace) := by
  have hends : Ends (Network.runSlots surroundings 4) late fun _ _ => True := by
    unfold surroundings SlotSelection.onSlotBoundary SlotSelection.startSlotframe
      SlotSelection.move LinkDeployer.deploy
    rw [LinkEdit.between_eq_insertionSort]
    decide +kernel
  obtain ⟨_, ⟨net', t⟩, hrun, -⟩ := ends_iff.1 hends
  obtain ⟨trace, left, a, g, h⟩ := delay_eq_waits_iff (by decide) ⟨0, rfl, by decide +kernel⟩
    (by decide) paired_late hrun
  exact ⟨net', t, trace, left, a, g, hrun, h⟩

/-- The frame of the first slotframe is confirmed three slots after its request, and the one of the
second slotframe is behind it by then. -/
theorem delay_lt_waits_late :
    Paired 0 0 late.2 ∧
      Ends (Network.runSlots surroundings.watched.traced 4) (late.1, [], [], late.2) fun _ p =>
        waits 0 0 p.2.1 = 3 ∧ p.2.2.2.schedulers[0]?.map (·.1.delay) = some 1 := by
  refine ⟨paired_late, ?_⟩
  unfold surroundings SlotSelection.onSlotBoundary SlotSelection.startSlotframe
    SlotSelection.move LinkDeployer.deploy
  rw [LinkEdit.between_eq_insertionSort]
  decide +kernel

end Star
end TschLearning
