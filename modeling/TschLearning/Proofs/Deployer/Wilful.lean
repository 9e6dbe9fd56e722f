import TschLearning.Proofs.Deployer.Fleet

/-! MAC layers that take or refuse whatever they are asked for, as they please. All that is known
of a call is that it takes effect if it is accepted, and that it changes nothing if it is
refused. -/

namespace TschLearning

variable {μ σ ν : Type}

/-- The operation has its effect on what is seen of a state, or it is refused and has none. -/
def Action.Wilful (view : σ → ν) (effect : ν → ν) (x : Action σ Unit) : Prop :=
  ∀ s, Ends (refusal? x) s fun refusal t =>
    view t = if refusal.isNone then effect (view s) else view s

/-- Notes can always be made, and are not seen. -/
structure Journal.Discreet [Journal σ] (view : σ → ν) : Prop where
  obstacle?_eq_none : ∀ n (s : σ), Journal.obstacle? n s = none
  view_enter : ∀ n s, view (Journal.enter n s) = view s

namespace MacAccess

variable [DecidableEq μ] [Journal σ]

/-- MAC layers that take or refuse hopping sequences as they please; `held` is what they have. -/
structure WilfulSequences (access : MacAccess μ σ) (held : σ → μ → Option (List Int)) : Prop where
  check : ∀ i channels, (access.checkSequence i channels).Wilful held id
  set : ∀ i channels,
    (access.setSequence i channels).Wilful held fun h => Function.update h i (some channels)
  discreet : Journal.Discreet held

/-- MAC layers that take or refuse link edits as they please; `tables` are their links. -/
structure WilfulLinks (access : MacAccess μ σ) (tables : σ → μ → SlotTable) : Prop where
  edit : ∀ i e, (LinkDeployer.edit access i e).Wilful tables fun t => Fleet.edited t (i, e)
  discreet : Journal.Discreet tables

end MacAccess

/-- MAC layers that answer their calls as they are told to. -/
structure Whims where
  -- whether the calls to come are refused; those behind the last answer are accepted
  refusals : List Bool
  sequences : Nat → Option (List Int)
  tables : Nat → SlotTable

namespace Whims

instance : Journal Whims where
  enter _ w := w

def start (refusals : List Bool) : Whims where
  refusals := refusals
  sequences _ := none
  tables _ _ := none

def busy : Fault := .scripted .macRejected "busy"

/-- A call that has its effect if it is not refused. -/
def call (effect : Whims → Whims) : Action Whims Unit := fun w =>
  let next := { w with refusals := w.refusals.tail }
  if w.refusals.headD false then .error busy next else .ok () (effect next)

def withSequence (i : Nat) (channels : List Int) (w : Whims) : Whims :=
  { w with sequences := Function.update w.sequences i (some channels) }

def withLink (i : Nat) (slot : Int) (channel : Option Int) (w : Whims) : Whims :=
  { w with tables := Function.update w.tables i (Function.update (w.tables i) slot channel) }

def access : MacAccess Nat Whims where
  label := toString
  deleteLink i s := call (withLink i s none)
  addLink i s c := call (withLink i s (some c))
  checkSequence _ _ := call id
  setSequence i cs := call (withSequence i cs)
  request _ _ _ := call id

theorem wilful_call (view : Whims → ν) {effect : Whims → Whims} {seen : ν → ν}
    (hview : ∀ w refusals, view { w with refusals } = view w)
    (heffect : ∀ w, view (effect w) = seen (view w)) : (call effect).Wilful view seen := by
  intro w
  rw [Action.ends_refusal?]
  cases h : w.refusals.headD false with
  | false =>
    refine .inl (Action.ends_iff.2 ⟨(), _, by simp only [call, h]; rfl, ?_⟩)
    simp only [Option.isNone_none, if_pos, heffect, hview]
  | true =>
    refine .inr ⟨busy, _, by simp only [call, h]; rfl, rfl, ?_⟩
    exact hview w _

theorem wilfulSequences : access.WilfulSequences Whims.sequences where
  check _ _ := wilful_call sequences (fun _ _ => rfl) fun _ => rfl
  set _ _ := wilful_call sequences (fun _ _ => rfl) fun _ => rfl
  discreet := ⟨fun _ _ => rfl, fun _ _ => rfl⟩

theorem wilfulLinks : access.WilfulLinks Whims.tables where
  edit i e := by
    cases e with
    | delete s _ => exact wilful_call tables (fun _ _ => rfl) fun _ => rfl
    | add s c => exact wilful_call tables (fun _ _ => rfl) fun _ => rfl
  discreet := ⟨fun _ _ => rfl, fun _ _ => rfl⟩

end Whims
end TschLearning
