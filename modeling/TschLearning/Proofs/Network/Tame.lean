import TschLearning.Proofs.Mac.Interface
import TschLearning.Proofs.Network.Logged

/-! What a network asks of the handlers of its events. They may change the devices, at the start
of a slot more than afterwards, but they leave every device in its place, with its sink and with a
schedule within the slotframe. -/

namespace TschLearning

/-- What does not change about devices: their sinks and their names. -/
structure Directory (μ κ : Type) where
  sink : μ → Option κ
  name : μ → Datum

/-- A change of a device that leaves it its sink, its name and a schedule within the slotframe. -/
def Mac.Tended {κ : Type} (slots channels : Nat) (m m' : Mac κ) : Prop :=
  m'.sink = m.sink ∧ m'.name = m.name ∧
    (m.WellFormed slots channels → m'.WellFormed slots channels)

/-- Changes of a device, one after the other, that leave it what it has to keep. -/
structure Mac.Gentle {κ : Type} (slots channels : Nat) (R : Mac κ → Mac κ → Prop) : Prop where
  refl : ∀ m, R m m
  trans : ∀ m m' m'', R m m' → R m' m'' → R m m''
  tended : ∀ {m m'}, R m m' → m.Tended slots channels m'

theorem Mac.gentle_tended (κ : Type) (slots channels : Nat) :
    Gentle slots channels (Tended slots channels : Mac κ → Mac κ → Prop) where
  refl _ := ⟨rfl, rfl, id⟩
  trans _ _ _ h h' := ⟨h'.1.trans h.1, h'.2.1.trans h.2.1, h'.2.2 ∘ h.2.2⟩
  tended := id

theorem Mac.gentle_edits (κ : Type) (slots channels : Nat) :
    Gentle slots channels (Edits : Mac κ → Mac κ → Prop) where
  refl := edits_refl
  trans := edits_trans
  tended := by
    rintro m m' ⟨frames, h⟩
    obtain ⟨links, sequence, he⟩ := h.exists_eq
    exact ⟨by rw [he], by rw [he], h.wellFormed⟩

theorem Mac.gentle_eq (κ : Type) (slots channels : Nat) :
    Gentle slots channels (Eq : Mac κ → Mac κ → Prop) where
  refl _ := rfl
  trans _ _ _ := Eq.trans
  tended := by
    rintro m _ rfl
    exact ⟨rfl, rfl, id⟩

variable {μ κ ο σ α : Type}

/-- The devices are there, as the directory says and with schedules within the slotframe. -/
def Shelf.Attached (shelf : Shelf μ (Mac κ) σ) (slots channels : Nat) (ids : List μ)
    (directory : Directory μ κ) (s : σ) : Prop :=
  ∀ i ∈ ids, ∃ m, shelf.get? i s = some m ∧ m.sink = directory.sink i ∧ m.name = directory.name i ∧
    m.WellFormed slots channels

theorem Shelf.Attached.altered {shelf : Shelf μ (Mac κ) σ} {slots channels : Nat} {ids : List μ}
    {directory : Directory μ κ} {R : Mac κ → Mac κ → Prop} {s t : σ}
    (h : shelf.Attached slots channels ids directory s)
    (hR : ∀ {m m'}, R m m' → m.Tended slots channels m') (hst : shelf.Altered ids R s t) :
    shelf.Attached slots channels ids directory t := by
  intro i hi
  obtain ⟨m, hm, hsink, hname, hwell⟩ := h i hi
  obtain ⟨m', hm', hR'⟩ := hst i hi m hm
  obtain ⟨hsink', hname', hwell'⟩ := hR hR'
  exact ⟨m', hm', hsink'.trans hsink, hname'.trans hname, hwell' hwell⟩

/-- The devices are kept on a store, a draw is always possible, and the handlers of events change
devices as the relation `early` says at the start of a slot and as `late` says afterwards, if they
do not raise a fault. -/
structure Surroundings.Tame [Journal σ] (env : Surroundings μ κ ο σ α) (ids : List μ)
    (early late : Mac κ → Mac κ → Prop) : Prop where
  lawful : env.macs.Lawful fun _ => ()
  uniform : ∀ s, ∃ u t, env.draws.uniform s = .ok u t ∧
    ∀ i ∈ ids, env.macs.get? i t = env.macs.get? i s
  boundary : ∀ {k asn s t}, env.boundary k asn s = .ok () t → env.macs.Altered ids early s t
  outcome : ∀ {k slot channel success s t},
    env.outcome k slot channel success s = .ok () t → env.macs.Altered ids late s t
  overheard : ∀ {k slot s t}, env.overheard k slot s = .ok () t → env.macs.Altered ids late s t
  observe : ∀ {o r s t}, env.observe o r s = .ok () t → env.macs.Altered ids late s t

/-- Gentle changes leave a device what it has to keep. -/
theorem Surroundings.Tame.tended [Journal σ] {env : Surroundings μ κ ο σ α} {ids : List μ}
    {slots channels : Nat} {early late : Mac κ → Mac κ → Prop} (h : env.Tame ids early late)
    (hearly : Mac.Gentle slots channels early) (hlate : Mac.Gentle slots channels late) :
    env.Tame ids (Mac.Tended slots channels) (Mac.Tended slots channels) where
  lawful := h.lawful
  uniform := h.uniform
  boundary hx := (h.boundary hx).mono fun _ _ => hearly.tended
  outcome hx := (h.outcome hx).mono fun _ _ => hlate.tended
  overheard hx := (h.overheard hx).mono fun _ _ => hlate.tended
  observe hx := (h.observe hx).mono fun _ _ => hlate.tended

end TschLearning
