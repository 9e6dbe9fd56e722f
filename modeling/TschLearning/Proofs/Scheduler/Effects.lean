import TschLearning.Proofs.Scheduler.Akin

/-! What a channel scheduler asks of its surroundings, written down in order: its deployments with
their answers, and its draws with what was drawn. Surroundings that answer alike, however much has
been noted in either of them, get the same asked. -/

namespace TschLearning

open TschLearning.Action

section Jotted

variable {σ τ ε β : Type}

/-- An operation whose result is written down behind what has been written so far. -/
def Action.jotted (entry : β → ε) (x : Action σ β) : Action (List ε × σ) β := fun (log, s) =>
  match x s with
  | .ok b s => .ok b (log ++ [entry b], s)
  | .error f s => .error f (log, s)

@[simp] theorem Action.ends_jotted {entry : β → ε} {x : Action σ β} {log : List ε} {s : σ}
    {post : β → List ε × σ → Prop} :
    Ends (x.jotted entry) (log, s) post ↔ Ends x s fun b t => post b (log ++ [entry b], t) := by
  simp only [Ends, jotted]
  cases x s <;> rfl

theorem Action.Agree.jotted {R : σ → τ → Prop} {P : β → β → Prop} {x : Action σ β}
    {y : Action τ β} (h : Agree R P x y) (hsame : ∀ b c, P b c → b = c) (entry : β → ε) :
    Agree (Beside (List ε) R) P (x.jotted entry) (y.jotted entry) := by
  rintro ⟨log, s⟩ ⟨_, t⟩ ⟨rfl, hst⟩
  have h := h s t hst
  simp only [Action.jotted]
  split at h
  · rename_i b _ c _ hx hy
    simp only [hx, hy]
    obtain rfl := hsame b c h.1
    exact ⟨h.1, rfl, h.2⟩
  · rename_i hx hy
    simp only [hx, hy]
    exact ⟨h.1, rfl, h.2⟩
  · exact h.elim

/-- Two operations that agree with a third one in between. -/
theorem Action.Agree.trans {υ : Type} {R : σ → τ → Prop} {S : τ → υ → Prop} {x : Action σ β}
    {y : Action τ β} {z : Action υ β} (hxy : Agree R Eq x y) (hyz : Agree S Eq y z) :
    Agree (fun s u => ∃ t, R s t ∧ S t u) Eq x z := by
  rintro s u ⟨t, hst, htu⟩
  have hxy := hxy s t hst
  have hyz := hyz t u htu
  cases hx : x s <;> cases hy : y t <;> cases hz : z u <;> simp only [hx, hy, hz] at hxy hyz ⊢
  · exact ⟨hxy.1.trans hyz.1, _, hxy.2, hyz.2⟩
  · exact ⟨hxy.1.trans hyz.1, _, hxy.2, hyz.2⟩

/-- What is known anyway is known afterwards. -/
theorem Action.Agree.knowing {R : σ → τ → Prop} {P : β → β → Prop} {x : Action σ β}
    {y : Action τ β} (h : Agree R P x y) (known : Prop) :
    Agree (fun s t => R s t ∧ known) P x y := by
  rintro s t ⟨hst, hknown⟩
  have h := h s t hst
  split at h
  · exact ⟨h.1, h.2, hknown⟩
  · exact ⟨h.1, h.2, hknown⟩
  · exact h.elim

end Jotted

namespace ChannelHopping

variable {σ τ α : Type}

/-- Something that a scheduler has asked for, and what it got. -/
inductive Effect (α : Type) where
  | deployed (deployment : Deployment)
  | drawn (number : α)
  | picked (bound : Nat) (number : Int)

/-- All deployments and all draws of a scheduler are written down, the latest last. -/
def Needs.tracing (needs : Needs σ α) : Needs (List (Effect α) × σ) α where
  deploy configuration :=
    (needs.deploy configuration).jotted fun answer => .deployed ⟨configuration, answer⟩
  draws := {
    uniform := needs.draws.uniform.jotted .drawn
    below := fun bound => (needs.draws.below bound).jotted (.picked bound) }

variable [Journal σ] [Journal τ] {slots channels : Nat} {needs : Needs σ α} {needs' : Needs τ α}

/-- A scheduler does the same whether its effects are written down or not. -/
theorem Needs.Proper.alike_tracing (h : needs.Proper channels) (slots : Nat)
    (hpos : 0 < channels) :
    Needs.Alike slots channels (fun cs => ∀ i ∈ cs, (0 : Int) ≤ i ∧ i < channels)
      (fun configuration (p : List (Effect α) × σ) s =>
        p.2 = s ∧ IsConfiguration slots channels configuration) needs.tracing needs where
  channels_pos := hpos
  admits _ _ hcs := hcs
  in_use hst := by
    obtain ⟨cs, rfl, hlen, hcs⟩ := hst.2
    exact ⟨cs, rfl, hlen, hcs⟩
  deploy {cs configuration p s} hlen hcs := by
    obtain ⟨log, t⟩ := p
    rintro ⟨rfl, hconfiguration⟩
    obtain ⟨answer, u, hd, -⟩ := ends_iff.1 (h.deploy_ends (Datum.ofInts cs) t)
    simp only [tracing, jotted, hd, true_and]
    cases answer with
    | true => exact ⟨cs, rfl, hlen, hcs⟩
    | false => exact hconfiguration
  uniform configuration := by
    rintro ⟨log, t⟩ s ⟨rfl, hconfiguration⟩
    obtain ⟨u, t', hu, -⟩ := ends_iff.1 (h.uniform_ends t)
    simpa only [tracing, jotted, hu, true_and] using hconfiguration
  below configuration := by
    rintro ⟨log, t⟩ s ⟨rfl, hconfiguration⟩
    obtain ⟨i, t', hi, hrange⟩ := ends_iff.1 (h.below_ends t)
    simpa only [tracing, jotted, hi, true_and] using And.intro hrange hconfiguration
  note {configuration p s} n := by
    rintro ⟨rfl, hconfiguration⟩
    exact ⟨rfl, rfl, hconfiguration⟩

/-- Surroundings that answer and draw alike, whatever notes are made in either of them. -/
structure Needs.Heedless (channels : Nat) (Held : σ → τ → Prop) (needs : Needs σ α)
    (needs' : Needs τ α) : Prop where
  deploy : ∀ configuration,
    Agree Held Eq (needs.deploy configuration) (needs'.deploy configuration)
  uniform : Agree Held Eq needs.draws.uniform needs'.draws.uniform
  below : Agree Held (fun i j : Int => i = j ∧ 0 ≤ i ∧ i < channels)
    (needs.draws.below channels) (needs'.draws.below channels)
  left : ∀ {s t}, Held s t → ∀ n, Journal.obstacle? n s = none ∧ Held (Journal.enter n s) t
  right : ∀ {s t}, Held s t → ∀ n, Journal.obstacle? n t = none ∧ Held s (Journal.enter n t)

variable {Held : σ → τ → Prop}

/-- They get the same asked. -/
theorem Needs.Heedless.alike_tracing (h : needs.Heedless channels Held needs') (slots : Nat)
    (hpos : 0 < channels) :
    Needs.Alike slots channels (fun cs => ∀ i ∈ cs, (0 : Int) ≤ i ∧ i < channels)
      (fun configuration p q =>
        Beside (List (Effect α)) Held p q ∧ IsConfiguration slots channels configuration)
      needs.tracing needs'.tracing where
  channels_pos := hpos
  admits _ _ hcs := hcs
  in_use hst := by
    obtain ⟨cs, rfl, hlen, hcs⟩ := hst.2
    exact ⟨cs, rfl, hlen, hcs⟩
  deploy {cs configuration p q} hlen hcs hpq := by
    have hd := (h.deploy (Datum.ofInts cs)).jotted (fun _ _ hab => hab)
      (fun answer => Effect.deployed (α := α) ⟨Datum.ofInts cs, answer⟩) p q hpq.1
    simp only [tracing]
    split at hd
    · rename_i a _ b _ hx hy
      simp only [hx, hy]
      refine ⟨hd.1, hd.2, ?_⟩
      cases a with
      | true => exact ⟨cs, rfl, hlen, hcs⟩
      | false => exact hpq.2
    · rename_i hx hy
      simp only [hx, hy]
      exact ⟨hd.1, hd.2, hpq.2⟩
    · exact hd.elim
  uniform configuration := (h.uniform.jotted (fun _ _ hab => hab) _).knowing _
  below configuration := (h.below.jotted (fun _ _ hab => hab.1) _).knowing _
  note {configuration p q} n hpq := by
    obtain ⟨log, s⟩ := p
    obtain ⟨_, t⟩ := q
    obtain ⟨⟨rfl, hst⟩, hconfiguration⟩ := hpq
    obtain ⟨hs, hst'⟩ := h.left hst n
    obtain ⟨ht, hst''⟩ := h.right hst' n
    exact ⟨hs.trans ht.symm, ⟨rfl, hst''⟩, hconfiguration⟩

/-- Schedulers that stand alike but for their counts, in surroundings that answer alike, with the
same effects so far. -/
def Kindred (slots channels : Nat) (Held : σ → τ → Prop)
    (p : ChannelHopping α × List (Effect α) × σ) (q : ChannelHopping α × List (Effect α) × τ) :
    Prop :=
  ∃ r, Around (Using slots channels fun configuration u v =>
      Beside (List (Effect α)) Held u v ∧ IsConfiguration slots channels configuration) p r ∧
    Recounted r q

omit [Journal σ] [Journal τ] in
theorem kindred_iff {c d : ChannelHopping α} {log log' : List (Effect α)} {s : σ} {t : τ} :
    Kindred slots channels Held (c, log, s) (d, log', t) ↔
      (∃ m n, d = c.recounted m n) ∧ log = log' ∧ Held s t ∧ c.table.slots = slots ∧
        c.table.channels = channels ∧ IsConfiguration slots channels c.configuration := by
  constructor
  · rintro ⟨⟨c, u⟩, ⟨rfl, hslots, hchannels, ⟨hlog, hheld⟩, hconfiguration⟩, hcounts, rfl⟩
    exact ⟨hcounts, hlog, hheld, hslots, hchannels, hconfiguration⟩
  · rintro ⟨hcounts, hlog, hheld, hslots, hchannels, hconfiguration⟩
    exact ⟨(c, log', t), ⟨rfl, hslots, hchannels, ⟨hlog, hheld⟩, hconfiguration⟩, hcounts, rfl⟩

/-- Called alike, they do and ask for the same. -/
theorem Needs.Heedless.agree_hear [Arith α] (h : needs.Heedless channels Held needs') (slots : Nat)
    (hpos : 0 < channels) (call : Signal) :
    Agree (Kindred (α := α) slots channels Held) Eq (hear needs.tracing call)
      (hear needs'.tracing call) :=
  (ChannelHopping.agree_hear (h.alike_tracing slots hpos) call).trans
    (agree_hear_recounted needs'.tracing call)

end ChannelHopping
end TschLearning
