import TschLearning.Proofs.Action.Store
import TschLearning.Scenario.ChannelHopping

/-! The devices of a network are a store: what happens to one of them touches neither the
others nor anything else. -/

namespace TschLearning.Pan

variable {ρ α : Type}

/-- What a network has beside its devices and its journal. -/
def aside (p : Pan ρ α) : ChannelHopping α × Deployer Nat × Sources ρ × Statistics :=
  (p.scheduler, p.deployer, p.sources, p.statistics)

theorem lawful_shelf : (shelf : Shelf Nat (Mac Unit) (Pan ρ α)).Lawful aside where
  get?_put_self {i m p} h u := by
    have hi := (Array.getElem?_eq_some_iff.1 h).1
    show (p.macs.setIfInBounds i u)[i]? = some u
    rw [Array.getElem?_setIfInBounds_self, if_pos hi]
  get?_put_of_ne {i j} hne u p := Array.getElem?_setIfInBounds_ne hne.symm
  get?_enter _ _ _ := rfl
  rest_put _ _ _ := rfl
  rest_enter _ _ := rfl
  obstacle?_eq_none _ _ := rfl

end TschLearning.Pan
