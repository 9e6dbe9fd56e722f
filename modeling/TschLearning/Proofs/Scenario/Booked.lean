import TschLearning.Proofs.Scenario.Timed

/-! A device and its scheduler among all others of a star. Whatever the others do, it leaves the
account of the one scheduler balanced. -/

namespace TschLearning
namespace Star

variable {ρ α : Type}

/-- Sinks and names of all devices, and that no other scheduler sends from the device `i` than
`k`. -/
structure Static (sinks : Nat → Option Nat) (names : Nat → Datum) (i k : Nat) (s : Star ρ α) :
    Prop where
  devices : ∀ (m : Nat) mac, s.macs[m]? = some mac → mac.sink = sinks m ∧ mac.name = names m
  foreign : ∀ (j : Nat) a g, j ≠ k → s.schedulers[j]? = some (a, g) → a.mac ≠ i

variable {sinks : Nat → Option Nat} {names : Nat → Datum} {i k j asn : Nat} {s t u : Star ρ α}
  {a b : SlotSelection Nat α} {g h : ρ} {mac mac' : Mac Nat}
  {account : Nat × Option Nat × Option Nat × Nat}

theorem Static.relink (hs : Static sinks names i k s) (ht : Relinked s t) :
    Static sinks names i k t where
  devices m mac hmac := by
    obtain ⟨l, hl⟩ := ht.symm.exists_of_eq_some hmac
    have hdevice := hs.devices m _ hl
    exact hdevice
  foreign := by
    rw [ht.schedulers_eq]
    exact hs.foreign

theorem Static.put (hs : Static sinks names i k s) (hmac : s.macs[j]? = some mac)
    (hsink : mac'.sink = mac.sink) (hname : mac'.name = mac.name) :
    Static sinks names i k (shelf.put j mac' s) where
  devices m mac'' hm := by
    by_cases hjm : j = m
    · subst hjm
      rw [getElem?_put_self hmac, Option.some.injEq] at hm
      subst hm
      rw [hsink, hname]
      exact hs.devices j mac hmac
    · rw [getElem?_put_of_ne hjm] at hm
      exact hs.devices m mac'' hm
  foreign := hs.foreign

theorem Static.reschedule (hs : Static sinks names i k s) (hj : s.schedulers[j]? = some (a, g))
    (hb : b.mac = a.mac) : Static sinks names i k (schedulerShelf.put j (b, h) s) where
  devices := hs.devices
  foreign m a' g' hmk hm := by
    by_cases hjm : j = m
    · subst hjm
      rw [schedulers_put_self hj, Option.some.injEq, Prod.mk.injEq] at hm
      rw [← hm.1, hb]
      exact hs.foreign j a g hmk hj
    · rw [schedulers_put_of_ne hjm] at hm
      exact hs.foreign m a' g' hmk hm

/-- What a scheduler has done leaves sinks, names and its device as they are. -/
theorem Static.step (hs : Static sinks names i k s) (hj : s.schedulers[j]? = some (a, g))
    (hb : Abiding account s b (h, u) ∨ Enqueued account s b (h, u)) (haccount : account.1 = a.mac) :
    Static sinks names i k (schedulerShelf.put j (b, h) u) := by
  have hmac : ∀ {account'}, b.account = account' → account' = account → b.mac = a.mac := by
    rintro _ rfl rfl
    exact haccount
  rcases hb with ⟨hb, hu⟩ | ⟨hb, t, mac, destination, size, ht, hm, hu⟩
  · refine (hs.relink hu).reschedule (a := a) (g := g) ?_ (hmac hb rfl)
    rw [hu.schedulers_eq]
    exact hj
  · subst hu
    have hput : Static sinks names i k (shelf.put b.mac (mac.request destination size) t) :=
      (hs.relink ht).put hm rfl rfl
    refine hput.reschedule (a := a) (g := g) ?_ (hmac hb rfl)
    exact ht.schedulers_eq ▸ hj

/-- A device that a scheduler does not send from keeps everything but its links. -/
theorem Static.device_step (hs : Static sinks names i k s) (hj : s.schedulers[j]? = some (a, g))
    (hjk : j ≠ k) (hb : Abiding account s b (h, u) ∨ Enqueued account s b (h, u))
    (haccount : account.1 = a.mac) (hi : s.macs[i]? = some mac) :
    ∃ l, (schedulerShelf.put j (b, h) u).macs[i]? = some (mac.withLinks l) := by
  rcases hb with ⟨hb, hu⟩ | ⟨hb, t, mac'', destination, size, ht, hm, hu⟩
  · exact hu.exists_of_eq_some hi
  · subst hu
    obtain ⟨l, hl⟩ := ht.exists_of_eq_some hi
    refine ⟨l, ?_⟩
    have hne : b.mac ≠ i := by
      have hmac : b.mac = a.mac := (congrArg Prod.fst hb).trans haccount
      rw [hmac]
      exact hs.foreign j a g hjk hj
    exact (getElem?_put_of_ne hne _ t).trans hl

/-- The account of the scheduler is balanced, and nothing that a slot cannot change is other than it
was. -/
def Booked (sinks : Nat → Option Nat) (names : Nat → Datum) (i k asn : Nat) (x : Stage)
    (due : Int) (prompt : Prop) (w : Watched ρ α) : Prop :=
  Static sinks names i k w.2 ∧ ∃ mac a g, w.2.macs[i]? = some mac ∧
    w.2.schedulers[k]? = some (a, g) ∧ Timed i asn x w.1 mac a due prompt

namespace Booked

variable {x y : Stage} {due : Int} {prompt : Prop} {left left' : List (Nat × Frame)} {asn' m : Nat}

theorem turn (hs : Booked sinks names i k asn x due prompt (left, s))
    (hxy : ∀ mac, ∀ a : SlotSelection Nat α, Timed i asn x left mac a due prompt →
      Timed i asn' y left mac a due prompt) :
    Booked sinks names i k asn' y due prompt (left, s) := by
  obtain ⟨hstatic, mac, a, g, hmac, hk, htimed⟩ := hs
  exact ⟨hstatic, mac, a, g, hmac, hk, hxy mac a htimed⟩

theorem of_eq (hs : Booked sinks names i k asn x due prompt (left, s)) (hmacs : t.macs = s.macs)
    (hschedulers : t.schedulers = s.schedulers) :
    Booked sinks names i k asn x due prompt (left, t) := by
  obtain ⟨⟨hdevices, hforeign⟩, mac, a, g, hmac, hk, htimed⟩ := hs
  refine ⟨⟨?_, ?_⟩, mac, a, g, ?_, ?_, htimed⟩
  · exact hmacs ▸ hdevices
  · exact hschedulers ▸ hforeign
  · exact hmacs ▸ hmac
  · exact hschedulers ▸ hk

theorem put (hs : Booked sinks names i k asn x due prompt (left, s)) (hm : s.macs[m]? = some mac)
    (hsink : mac'.sink = mac.sink) (hname : mac'.name = mac.name)
    (hown : m = i → ∀ a : SlotSelection Nat α, Timed i asn x left mac a due prompt →
      Timed i asn y left' mac' a due prompt)
    (hother : m ≠ i → y = x ∧ left'.lookup i = left.lookup i) :
    Booked sinks names i k asn y due prompt (left', shelf.put m mac' s) := by
  obtain ⟨hstatic, mac₀, a, g, hmac, hk, htimed⟩ := hs
  refine ⟨hstatic.put hm hsink hname, ?_⟩
  by_cases hmi : m = i
  · subst hmi
    obtain rfl : mac₀ = mac := Option.some.inj (hmac.symm.trans hm)
    exact ⟨mac', a, g, getElem?_put_self hm mac', hk, hown rfl a htimed⟩
  · obtain ⟨rfl, hleft⟩ := hother hmi
    refine ⟨mac₀, a, g, (getElem?_put_of_ne hmi mac' s).trans hmac, hk, ?_⟩
    exact htimed.of_lookup_eq hleft

theorem step (hs : Booked sinks names i k asn x due prompt (left, s))
    (hj : s.schedulers[j]? = some (a, g)) (hjk : j ≠ k)
    (hb : Abiding account s b (h, u) ∨ Enqueued account s b (h, u)) (haccount : account.1 = a.mac) :
    Booked sinks names i k asn x due prompt (left, schedulerShelf.put j (b, h) u) := by
  obtain ⟨hstatic, mac, a', g', hmac, hk, htimed⟩ := hs
  obtain ⟨l, hl⟩ := hstatic.device_step hj hjk hb haccount hmac
  have hu : u.schedulers = s.schedulers := by
    rcases hb with hb | ⟨-, t, _, _, _, ht, -, rfl⟩
    · exact hb.2.schedulers_eq
    · exact ht.schedulers_eq
  refine ⟨hstatic.step hj hb haccount, mac.withLinks l, a', g', hl, ?_, htimed.relink rfl l⟩
  rw [schedulers_put_of_ne hjk, hu]
  exact hk

theorem own {due' : Int} {prompt' : Prop}
    (hs : Booked sinks names i k asn x due prompt (left, s)) (hk : s.schedulers[k]? = some (a, g))
    (hb : Abiding account s b (h, u)) (haccount : account.1 = a.mac)
    (hab : ∀ mac l, s.macs[i]? = some mac → Timed i asn x left mac a due prompt →
      Timed i asn y left (mac.withLinks l) b due' prompt') :
    Booked sinks names i k asn y due' prompt' (left, schedulerShelf.put k (b, h) u) := by
  obtain ⟨hstatic, mac, a', g', hmac, hk', htimed⟩ := hs
  obtain ⟨rfl, rfl⟩ := Prod.mk.inj (Option.some.inj (hk.symm.trans hk'))
  refine ⟨hstatic.step hk (.inl hb) haccount, ?_⟩
  obtain ⟨hb, hu⟩ := hb
  obtain ⟨l, hl⟩ := hu.exists_of_eq_some hmac
  refine ⟨mac.withLinks l, b, h, hl, ?_, hab mac l hmac htimed⟩
  exact schedulers_put_self (hu.schedulers_eq ▸ hk) _

theorem reach (hs : Booked sinks names i k asn .announced due prompt (left, s))
    (hk : s.schedulers[k]? = some (a, g))
    (hb : Abiding ({ a with asn := some asn }).account s b (h, u) ∨
      Enqueued (SlotSelection.asking { a with asn := some asn }).account s b (h, u)) :
    Booked sinks names i k asn .begun due prompt (left, schedulerShelf.put k (b, h) u) := by
  rcases hb with hb | hb
  · exact hs.own hk hb rfl fun mac l _ htimed => htimed.reach hb.1 l
  · obtain ⟨hstatic, mac, a', g', hmac, hk', htimed⟩ := hs
    obtain ⟨rfl, rfl⟩ := Prod.mk.inj (Option.some.inj (hk.symm.trans hk'))
    refine ⟨hstatic.step hk (.inr hb) rfl, ?_⟩
    obtain ⟨hb, t, mac', destination, size, ht, hm, rfl⟩ := hb
    have hbi : b.mac = i := (congrArg Prod.fst hb).trans htimed.mac_eq
    rw [hbi] at hm ⊢
    obtain ⟨l, hl⟩ := ht.exists_of_eq_some hmac
    obtain rfl := Option.some.inj (hl.symm.trans hm)
    refine ⟨_, b, h, getElem?_put_self hm _, ?_, htimed.request hb l destination size⟩
    exact schedulers_put_self (ht.schedulers_eq ▸ hk) _

theorem settle {channel : Int}
    (hs : Booked sinks names i k asn (.sent channel) due prompt (left, s))
    (hk : s.schedulers[k]? = some (a, g)) {success : Bool}
    (hb : Abiding (a.counting success).account s b (h, u)) :
    Booked sinks names i k asn (.told channel success)
      (due + if success then wait i (left, s) else 0)
      (prompt ∧ (success → ∀ mac, s.macs[i]? = some mac → mac.queue = []))
      (left, schedulerShelf.put k (b, h) u) := by
  refine hs.own hk hb (SlotSelection.mac_counting a success) fun mac l hmac htimed => ?_
  cases success with
  | false =>
    simp only [Bool.false_eq_true, if_false, Int.add_zero, false_implies, and_true]
    exact htimed.lose hb.1 l
  | true =>
    simp only [if_true, true_implies, hmac, Option.some.injEq, forall_eq']
    exact htimed.confirm hmac hb.1 l

end Booked

end Star
end TschLearning
