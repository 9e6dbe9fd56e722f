import TschLearning.Proofs.Network.Traced

/-! Networks whose queues are watched: every frame that leaves a queue is written down, the latest
first. Watching changes nothing about a run. -/

namespace TschLearning

variable {μ κ ο σ α : Type}

/-- The frame that has left the queue of a device between two states of it. -/
def Mac.departed? (before after : Mac κ) : Option Frame :=
  if after.queue.length < before.queue.length then before.queue.head? else none

/-- Devices whose queues are watched. -/
def Shelf.watched (shelf : Shelf μ (Mac κ) σ) : Shelf μ (Mac κ) (List (μ × Frame) × σ) where
  get? m p := shelf.get? m p.2
  put m mac p :=
    ((((shelf.get? m p.2).bind (·.departed? mac)).map (m, ·)).toList ++ p.1, shelf.put m mac p.2)

namespace Shelf

variable {shelf : Shelf μ (Mac κ) σ} {m : μ} {mac mac' : Mac κ} {left : List (μ × Frame)} {s : σ}

theorem watched_put_of_queue_eq (hmac : shelf.get? m s = some mac)
    (hqueue : mac'.queue = mac.queue) :
    shelf.watched.put m mac' (left, s) = (left, shelf.put m mac' s) := by
  simp only [watched, hmac, Option.bind_some, Mac.departed?, hqueue, Nat.lt_irrefl, if_false,
    Option.map_none, Option.toList_none, List.nil_append]

theorem watched_put_of_queue_cons (hmac : shelf.get? m s = some mac) {f : Frame}
    {rest : List Frame} (hqueue : mac.queue = f :: rest) (hqueue' : mac'.queue = rest) :
    shelf.watched.put m mac' (left, s) = ((m, f) :: left, shelf.put m mac' s) := by
  simp only [watched, hmac, Option.bind_some, Mac.departed?, hqueue, hqueue', List.length_cons,
    Nat.lt_succ_self, if_true, List.head?_cons, Option.map_some, Option.toList_some,
    List.singleton_append]

end Shelf

def Surroundings.watched (env : Surroundings μ κ ο σ α) :
    Surroundings μ κ ο (List (μ × Frame) × σ) α where
  macs := env.macs.watched
  draws := env.draws.outside
  boundary k asn := (env.boundary k asn).outside
  outcome k slot channel success := (env.outcome k slot channel success).outside
  overheard k slot := (env.overheard k slot).outside
  observe o r := (env.observe o r).outside

namespace Surroundings

open TschLearning.Action

variable {env : Surroundings μ κ ο σ α} {lenient : Prop}
  {trace : List (Delivered μ κ ο (List (μ × Frame) × σ))} {left : List (μ × Frame)} {s : σ}

theorem meets_watched_uniform {post : α → _ → Prop} :
    Meets lenient env.watched.traced.draws.uniform (trace, left, s) post ↔
      Meets lenient env.draws.uniform s fun u t => post u (trace, left, t) := by
  show Meets lenient (Action.outside (Action.outside env.draws.uniform)) _ _ ↔ _
  rw [meets_outside, meets_outside]

variable {post : Unit → List (Delivered μ κ ο (List (μ × Frame) × σ)) × List (μ × Frame) × σ → Prop}

theorem meets_watched_delivering {d : Delivery μ κ ο} {x : Action σ Unit} :
    Meets lenient (delivering d x.outside) (trace, left, s) post ↔
      Meets lenient x s fun u t => post u (trace ++ [⟨d, (left, s), (left, t)⟩], left, t) := by
  rw [meets_delivering, meets_outside]

end Surroundings

namespace Network

open TschLearning.Action

variable [Journal σ] (env : Surroundings μ κ ο σ α)

theorem watched_alike : env.watched.Alike Entered env where
  read m := by
    rintro ⟨left, s⟩ _ rfl
    simp only [Shelf.read, Surroundings.watched, Shelf.watched]
    cases env.macs.get? m s with
    | none => exact ⟨rfl, rfl⟩
    | some mac => exact ⟨rfl, rfl⟩
  update m f := by
    rintro ⟨left, s⟩ _ rfl
    simp only [Shelf.update, Surroundings.watched, Shelf.watched]
    cases env.macs.get? m s with
    | none => exact ⟨rfl, rfl⟩
    | some mac =>
      cases hf : f mac with
      | error fault =>
        simp only [hf]
        exact ⟨trivial, rfl⟩
      | ok r =>
        simp only [hf]
        exact ⟨trivial, rfl⟩
  uniform := agree_outside _
  boundary _ _ := agree_outside _
  outcome _ _ _ _ := agree_outside _
  overheard _ _ := agree_outside _
  observe _ _ := agree_outside _
  note n := agree_note_entered n

variable [Arith α] [DecidableEq μ] [DecidableEq κ]

theorem watched_of_runSlots {n : Nat} {net net' : Network μ ο α} {s t : σ}
    (h : runSlots env n (net, s) = .ok () (net', t)) :
    ∃ trace left,
      runSlots env.watched.traced n (net, [], [], s) = .ok () (net', trace, left, t) := by
  obtain ⟨⟨left, _⟩, hwatched, rfl⟩ :=
    runSlots_of_alike (watched_alike env).symm (t := ([], s)) rfl h
  obtain ⟨⟨trace, _⟩, htraced, rfl⟩ :=
    runSlots_of_alike (traced_alike env.watched).symm (t := ([], [], s)) rfl hwatched
  exact ⟨trace, left, htraced⟩

theorem runSlots_of_watched {n : Nat} {net net' : Network μ ο α} {s t : σ}
    {trace : List (Delivered μ κ ο (List (μ × Frame) × σ))} {left : List (μ × Frame)}
    (h : runSlots env.watched.traced n (net, [], [], s) = .ok () (net', trace, left, t)) :
    runSlots env n (net, s) = .ok () (net', t) := by
  obtain ⟨_, hrun, rfl⟩ :=
    runSlots_of_alike (watched_alike env) rfl (runSlots_of_traced env.watched h)
  exact hrun

end Network
end TschLearning
