import Mathlib.Algebra.Group.Int.Defs
import Mathlib.Logic.Function.Basic
import TschLearning.Notifier
import TschLearning.Proofs.Action.Settles
import TschLearning.Proofs.Action.Store
import TschLearning.Testbed.Notifications

/-! Who a notifier calls, and in which order. Subscribers are kept by rank, beside priorities
that nobody has any more. A roll says what all requests so far amount to: who is subscribed, and
at which priority. Tables of the roll, of the ranks and of the calls in order, each kept up to
date by the requests alone, stay in step with what the notifier keeps, whatever is asked for, and
so the calls follow the roll. -/

namespace TschLearning.Notifier

open TschLearning.Action

variable {κ σ : Type}

/-- The priority of everybody who is subscribed. -/
abbrev Roll (κ : Type) := κ → Option Int

/-- The ranks hold those on the roll, each of them once and at its priority. -/
structure Ranked (roll : Roll κ) (ranks : List (Priority × List κ)) : Prop where
  rank : ∀ r ∈ ranks, ∃ p : Int, r.1 = .number (.int p) ∧ ∀ c ∈ r.2, roll c = some p
  nodup : (ranks.flatMap (·.2)).Nodup
  complete : ∀ c, (roll c).isSome → c ∈ ranks.flatMap (·.2)

/-! ### The order of the calls -/

def isNumbered (r : Priority × List κ) : Bool :=
  match r.1 with
  | .number (.int _) => true
  | _ => false

theorem isNumbered_iff {r : Priority × List κ} :
    isNumbered r = true ↔ ∃ p : Int, r.1 = .number (.int p) := by
  unfold isNumbered
  split
  · rename_i p hp
    exact ⟨fun _ => ⟨p, hp⟩, fun _ => rfl⟩
  · rename_i hp
    exact ⟨fun h => (Bool.false_ne_true h).elim, fun ⟨p, h⟩ => (hp p h).elim⟩

theorem total_isNumbered :
    Ranking.Total (isNumbered (κ := κ)) fun a b => a.1.lt b.1 where
  asymm ha hb h := by
    obtain ⟨p, hp⟩ := isNumbered_iff.1 ha
    obtain ⟨q, hq⟩ := isNumbered_iff.1 hb
    simp only [hp, hq, Priority.lt_int, decide_eq_true_iff, decide_eq_false_iff_not] at h ⊢
    omega
  trans ha hb hc hab hbc := by
    obtain ⟨p, hp⟩ := isNumbered_iff.1 ha
    obtain ⟨q, hq⟩ := isNumbered_iff.1 hb
    obtain ⟨r, hr⟩ := isNumbered_iff.1 hc
    simp only [hp, hq, hr, Priority.lt_int, decide_eq_false_iff_not] at hab hbc ⊢
    omega

namespace Ranked

variable {roll : Roll κ} {ranks : List (Priority × List κ)}

theorem isNumbered (h : Ranked roll ranks) {r : Priority × List κ} (hr : r ∈ ranks) :
    isNumbered r = true := by
  obtain ⟨p, hp, -⟩ := h.rank r hr
  exact isNumbered_iff.2 ⟨p, hp⟩

theorem mem_iff (h : Ranked roll ranks) {c : κ} :
    c ∈ ranks.flatMap (·.2) ↔ (roll c).isSome := by
  refine ⟨fun hc => ?_, h.complete c⟩
  obtain ⟨r, hr, hc⟩ := List.mem_flatMap.1 hc
  obtain ⟨p, -, hp⟩ := h.rank r hr
  rw [hp c hc]
  rfl

theorem nodup_ordered (h : Ranked roll ranks) : (ordered ranks).Nodup :=
  (ordered_perm ranks).nodup_iff.2 h.nodup

theorem mem_ordered (h : Ranked roll ranks) {c : κ} : c ∈ ordered ranks ↔ (roll c).isSome :=
  (ordered_perm ranks).mem_iff.trans h.mem_iff

/-- Nobody comes before somebody of a higher priority. -/
theorem pairwise_ordered (h : Ranked roll ranks) :
    (ordered ranks).Pairwise fun c d => ∃ p q, roll c = some p ∧ roll d = some q ∧ q ≤ p := by
  have hsorted : (Ranking.descending (fun r : Priority × List κ => r.1.isPlaced)
      (fun a b => a.1.lt b.1) ranks).Pairwise fun a b => a.1.lt b.1 = false := by
    refine Ranking.ordered_descending total_isNumbered (fun r hr => ?_) fun r hr => h.isNumbered hr
    obtain ⟨p, hp, -⟩ := h.rank r hr
    rw [hp, Priority.isPlaced, Number.same_int, decide_eq_true_iff]
  have hsub := (Ranking.perm_descending (fun r : Priority × List κ => r.1.isPlaced)
    (fun a b => a.1.lt b.1) ranks).subset
  refine List.pairwise_flatMap.2 ⟨fun r hr => ?_, hsorted.imp_of_mem ?_⟩
  · obtain ⟨p, -, hroll⟩ := h.rank r (hsub hr)
    exact List.pairwise_of_forall_mem_list fun c hc d hd =>
      ⟨p, p, hroll c hc, hroll d hd, Int.le_refl p⟩
  · intro a b ha hb hab c hc d hd
    obtain ⟨p, hp, hc'⟩ := h.rank a (hsub ha)
    obtain ⟨q, hq, hd'⟩ := h.rank b (hsub hb)
    rw [hp, hq, Priority.lt_int, decide_eq_false_iff_not, Int.not_lt] at hab
    exact ⟨p, q, hc' c hc, hd' d hd, hab⟩

end Ranked

/-! ### Calls -/

/-- A call with a value that is written down before it is made. -/
def recorded (call : Datum → κ → Action σ Unit) (value : Datum) (callee : κ) :
    Action (List (κ × Datum) × σ) Unit := do
  change (· ++ [(callee, value)])
  (call value callee).outside

/-- Calls none of which fails are made one by one, and writing them down changes nothing about
them. -/
theorem ends_recorded {I : σ → Prop} {call : Datum → κ → Action σ Unit} {value : Datum}
    {callees : List κ}
    (hcall : ∀ c ∈ callees, ∀ s, I s → Ends (call value c) s fun _ t => I t)
    (made : List (κ × Datum)) {s : σ} (hs : I s) :
    Ends (callees.forM (recorded call value)) (made, s) fun _ t =>
      t.1 = made ++ callees.map (·, value) ∧
        Ends (callees.forM (call value)) s fun _ u => u = t.2 := by
  induction callees generalizing made s with
  | nil => exact ⟨(List.append_nil made).symm, rfl⟩
  | cons c rest ih =>
    obtain ⟨_, t, hc, ht⟩ := ends_iff.1 (hcall c List.mem_cons_self s hs)
    have hrest := ih (fun d hd => hcall d (List.mem_cons_of_mem _ hd)) (made ++ [(c, value)]) ht
    show Ends (recorded call value c >>= fun _ => rest.forM (recorded call value)) (made, s) _
    simp only [recorded, ends_bind, ends_change, ends_outside]
    refine ends_iff.2 ⟨_, t, hc, hrest.mono fun _ u hu => ⟨?_, ?_⟩⟩
    · rw [hu.1, List.append_assoc, List.map_cons, List.singleton_append]
    · exact ends_bind.2 (ends_iff.2 ⟨_, t, hc, hu.2⟩)

/-- A notifier calls all who are to be called, unless the entry that it makes in the journal
stands in the way. -/
theorem trigger_recorded [Journal σ] (n : Notifier κ) {I : σ → Prop}
    (call : Datum → κ → Action σ Unit) (value : Datum)
    (hcall : ∀ c ∈ n.callees, ∀ s, I s → Ends (call value c) s fun _ t => I t)
    (made : List (κ × Datum)) {s : σ}
    (hs : I (Journal.enter (.ofComponent .simulation n.label (.triggered value)) s)) :
    match Journal.obstacle? (.ofComponent .simulation n.label (.triggered value)) s with
    | none =>
      Ends (n.trigger value (recorded call value)) (made, s) fun _ t =>
        t.1 = made ++ n.callees.map (·, value) ∧
          Ends (n.trigger value (call value)) s fun _ u => u = t.2
    | some f =>
      Settles (n.trigger value (recorded call value)) (made, s) fun outcome t =>
        outcome = .error f ∧ t = (made, s) := by
  split
  · rename_i hnote
    simp only [trigger, ends_bind, ends_note]
    exact ⟨hnote, (ends_recorded hcall made hs).mono fun _ t ht => ⟨ht.1, hnote, ht.2⟩⟩
  · rename_i f hnote
    have hnote : Journal.obstacle? (.ofComponent .simulation n.label (.triggered value))
        (made, s) = some f := hnote
    rw [trigger, settles_bind, settles_note, hnote]
    exact ⟨rfl, rfl⟩

variable [DecidableEq κ]

/-! ### Ranks that change -/

omit [DecidableEq κ] in
/-- A rank once somebody was enlisted is one of those before, or the newcomer's. -/
theorem mem_enlist {c : κ} {p : Int} {ranks : List (Priority × List κ)} {r : Priority × List κ}
    (hranks : ∀ r ∈ ranks, isNumbered r = true) (hr : r ∈ enlist c (.number (.int p)) ranks) :
    r ∈ ranks ∨ ∃ members, r = (.number (.int p), members ++ [c]) ∧
      ∀ m ∈ members, (.number (.int p), members) ∈ ranks := by
  induction ranks with
  | nil =>
    rw [enlist, List.mem_singleton] at hr
    exact .inr ⟨[], hr, fun _ h => (List.not_mem_nil h).elim⟩
  | cons head rest ih =>
    obtain ⟨q, members⟩ := head
    obtain ⟨i, rfl : q = .number (.int i)⟩ := isNumbered_iff.1 (hranks _ List.mem_cons_self)
    simp only [enlist, Priority.same_int, decide_eq_true_iff] at hr
    split at hr
    · rename_i hip
      subst hip
      rcases List.mem_cons.1 hr with rfl | hr
      · exact .inr ⟨members, rfl, fun _ _ => List.mem_cons_self⟩
      · exact .inl (List.mem_cons_of_mem _ hr)
    · rcases List.mem_cons.1 hr with rfl | hr
      · exact .inl List.mem_cons_self
      · rcases ih (fun r hr => hranks r (List.mem_cons_of_mem _ hr)) hr with h | ⟨ms, h, hms⟩
        · exact .inl (List.mem_cons_of_mem _ h)
        · exact .inr ⟨ms, h, fun m hm => List.mem_cons_of_mem _ (hms m hm)⟩

theorem flatMap_dismiss (c : κ) (ranks : List (Priority × List κ)) :
    (dismiss c ranks).flatMap (·.2) = (ranks.flatMap (·.2)).filter fun d => d ≠ c := by
  rw [dismiss, List.flatMap_map, List.filter_flatMap]

namespace Ranked

variable {roll : Roll κ} {ranks : List (Priority × List κ)}

theorem enlist (h : Ranked roll ranks) {c : κ} (hc : roll c = none) (p : Int) :
    Ranked (Function.update roll c (some p)) (enlist c (.number (.int p)) ranks) := by
  have hnew : c ∉ ranks.flatMap (·.2) := by
    rw [h.mem_iff, hc]
    exact Bool.false_ne_true
  have hperm := enlist_perm c (.number (.int p)) ranks
  have hother : ∀ r ∈ ranks, ∀ d ∈ r.2, Function.update roll c (some p) d = roll d := by
    intro r hr d hd
    refine Function.update_of_ne ?_ _ _
    rintro rfl
    exact hnew (List.mem_flatMap.2 ⟨r, hr, hd⟩)
  refine ⟨fun r hr => ?_, ?_, fun d hd => ?_⟩
  · rcases mem_enlist (fun r hr => h.isNumbered hr) hr with hr | ⟨members, rfl, hmembers⟩
    · obtain ⟨q, hq, hroll⟩ := h.rank r hr
      exact ⟨q, hq, fun d hd => (hother r hr d hd).trans (hroll d hd)⟩
    · refine ⟨p, rfl, fun d hd => ?_⟩
      rcases List.mem_append.1 hd with hd | hd
      · obtain ⟨q, hq, hroll⟩ := h.rank _ (hmembers d hd)
        cases hq
        exact (hother _ (hmembers d hd) d hd).trans (hroll d hd)
      · rw [List.mem_singleton.1 hd, Function.update_self]
  · exact hperm.nodup_iff.2 (List.nodup_cons.2 ⟨hnew, h.nodup⟩)
  · refine hperm.mem_iff.2 ?_
    by_cases hdc : d = c
    · exact hdc ▸ List.mem_cons_self
    · rw [Function.update_of_ne hdc] at hd
      exact List.mem_cons_of_mem _ (h.complete d hd)

theorem dismiss (h : Ranked roll ranks) (c : κ) :
    Ranked (Function.update roll c none) (dismiss c ranks) := by
  refine ⟨fun r hr => ?_, ?_, fun d hd => ?_⟩
  · obtain ⟨s, hs, rfl⟩ := List.mem_map.1 hr
    obtain ⟨p, hp, hroll⟩ := h.rank s hs
    refine ⟨p, hp, fun d hd => ?_⟩
    obtain ⟨hd, hdc⟩ := List.mem_filter.1 hd
    rw [Function.update_of_ne (of_decide_eq_true hdc)]
    exact hroll d hd
  · rw [flatMap_dismiss]
    exact h.nodup.filter _
  · have hdc : d ≠ c := by
      rintro rfl
      rw [Function.update_self] at hd
      exact Bool.false_ne_true hd
    rw [Function.update_of_ne hdc] at hd
    rw [flatMap_dismiss]
    exact List.mem_filter.2 ⟨h.complete d hd, decide_eq_true hdc⟩

end Ranked

/-! ### Requests -/

inductive Request (κ : Type) where
  | subscribe (callee : κ) (priority : Int)
  | unsubscribe (callee : κ)
deriving DecidableEq

namespace Request

def make : Request κ → Action (Notifier κ) Unit
  | .subscribe callee priority => Notifier.subscribe callee (.int priority)
  | .unsubscribe callee => Notifier.unsubscribe callee

/-- Nobody subscribes twice, and only who is subscribed leaves. -/
def isAccepted (roll : Roll κ) : Request κ → Bool
  | .subscribe callee _ => (roll callee).isNone
  | .unsubscribe callee => (roll callee).isSome

def accept (roll : Roll κ) : Request κ → Roll κ
  | .subscribe callee priority => Function.update roll callee (some priority)
  | .unsubscribe callee => Function.update roll callee none

def enter (roll : Roll κ) (request : Request κ) : Roll κ :=
  if request.isAccepted roll then request.accept roll else roll

end Request

/-- The roll after requests to a notifier without subscribers. -/
def rollAfter (requests : List (Request κ)) : Roll κ := requests.foldl Request.enter fun _ => none

/-! ### Tables -/

/-- The tables that could be kept of requests: the priority of everybody, who is subscribed at
each priority, and all of them in the order of their calls. -/
structure Tables (κ : Type) where
  priorities : Roll κ
  ranks : List (Priority × List κ)
  sorted : List κ

namespace Tables

def empty : Tables κ := ⟨fun _ => none, [], []⟩

/-- Removes somebody from the rank of a priority. -/
def leave (c : κ) (p : Int) (ranks : List (Priority × List κ)) : List (Priority × List κ) :=
  ranks.map fun r => if r.1.same (.number (.int p)) then (r.1, r.2.erase c) else r

/-- The tables after a request. The priorities say who is subscribed, and which rank is left; the
calls are put in order anew whenever the ranks have changed. -/
def enter (t : Tables κ) : Request κ → Tables κ
  | .subscribe c p =>
    if (t.priorities c).isSome then t
    else
      let ranks := enlist c (.number (.int p)) t.ranks
      ⟨Function.update t.priorities c (some p), ranks, ordered ranks⟩
  | .unsubscribe c =>
    match t.priorities c with
    | none => t
    | some p =>
      let ranks := leave c p t.ranks
      ⟨Function.update t.priorities c none, ranks, ordered ranks⟩

theorem priorities_enter (t : Tables κ) (request : Request κ) :
    (t.enter request).priorities = request.enter t.priorities := by
  cases request with
  | subscribe c p =>
    cases h : t.priorities c <;> simp [enter, Request.enter, Request.isAccepted, Request.accept, h]
  | unsubscribe c =>
    cases h : t.priorities c <;> simp [enter, Request.enter, Request.isAccepted, Request.accept, h]

end Tables

def tablesAfter (requests : List (Request κ)) : Tables κ := requests.foldl Tables.enter .empty

theorem priorities_tablesAfter (requests : List (Request κ)) :
    (tablesAfter requests).priorities = rollAfter requests :=
  (List.foldl_hom Tables.priorities fun t request => (t.priorities_enter request).symm).symm

/-- The priority of the rank that somebody is in. -/
def priorityOf? (c : κ) (ranks : List (Priority × List κ)) : Option Priority :=
  (ranks.find? (·.2.contains c)).map (·.1)

theorem priorityOf?_eq {roll : Roll κ} {ranks : List (Priority × List κ)} (h : Ranked roll ranks)
    (c : κ) : priorityOf? c ranks = (roll c).map fun p => .number (.int p) := by
  cases hfind : ranks.find? (·.2.contains c) with
  | some r =>
    obtain ⟨p, hp, hroll⟩ := h.rank r (List.mem_of_find?_eq_some hfind)
    have hc : r.2.contains c = true := by simpa using List.find?_some hfind
    rw [priorityOf?, hfind, hroll c (List.contains_iff_mem.1 hc), Option.map_some, Option.map_some,
      hp]
  | none =>
    have hroll : roll c = none := Option.not_isSome_iff_eq_none.1 fun hc => by
      obtain ⟨r, hr, hc⟩ := List.mem_flatMap.1 (h.complete c hc)
      exact List.find?_eq_none.1 hfind r hr (List.contains_iff_mem.2 hc)
    rw [priorityOf?, hfind, hroll, Option.map_none, Option.map_none]

/-- Nobody is in two ranks, so who leaves one leaves them all. -/
theorem leave_eq_dismiss {roll : Roll κ} {ranks : List (Priority × List κ)}
    (h : Ranked roll ranks) {c : κ} {p : Int} (hc : roll c = some p) :
    Tables.leave c p ranks = dismiss c ranks := by
  refine List.map_congr_left fun ⟨q, members⟩ hr => ?_
  obtain ⟨q, rfl, hroll⟩ := h.rank _ hr
  have hnodup : members.Nodup := (List.pairwise_flatMap.1 h.nodup).1 _ hr
  have hfilter : members.erase c = members.filter fun d => d ≠ c := by
    simp only [hnodup.erase_eq_filter, decide_not]
    rfl
  rw [Priority.same_int, ← hfilter]
  split
  · rfl
  · rename_i hqp
    have hnot : c ∉ members := fun hmem =>
      hqp (decide_eq_true (Option.some.inj ((hroll c hmem).symm.trans hc)))
    rw [List.erase_of_not_mem hnot]

/-- The notifier, which was never given a priority other than an integer, keeps or derives what
the tables say. -/
structure Tallies (t : Tables κ) (n : Notifier κ) : Prop where
  ranked : Ranked t.priorities n.ranks
  priorities_eq : ∀ c, (t.priorities c).map (fun p => .number (.int p)) = priorityOf? c n.ranks
  ranks_eq : t.ranks = n.ranks
  sorted_eq : t.sorted = n.callees
  strays : n.strays = []
  frozen : n.frozen = none

namespace Tallies

variable {t : Tables κ} {n : Notifier κ}

/-- Ranks settle the other tables. -/
theorem of_ranked {roll : Roll κ} {ranks : List (Priority × List κ)} (h : Ranked roll ranks)
    (hranks : n.ranks = ranks) (hstrays : n.strays = []) (hfrozen : n.frozen = none) :
    Tallies ⟨roll, ranks, ordered ranks⟩ n where
  ranked := by rwa [hranks]
  priorities_eq c := by rw [hranks, priorityOf?_eq h c]
  ranks_eq := hranks.symm
  sorted_eq := by rw [callees, hfrozen, Option.getD_none, hranks]
  strays := hstrays
  frozen := hfrozen

theorem create (name : Datum) (owner : String) : Tallies (κ := κ) .empty (create name owner) where
  ranked :=
    { rank := fun _ hr => (List.not_mem_nil hr).elim
      nodup := List.nodup_nil
      complete := fun _ hc => (Bool.false_ne_true hc).elim }
  priorities_eq _ := rfl
  ranks_eq := rfl
  sorted_eq := (ordered_perm []).eq_nil.symm
  strays := rfl
  frozen := rfl

theorem callees_eq (h : Tallies t n) : n.callees = ordered n.ranks := by
  rw [callees, h.frozen, Option.getD_none]

theorem isSubscribed_eq (h : Tallies t n) (c : κ) :
    n.isSubscribed c = (t.priorities c).isSome := by
  have hpriority := congrArg Option.isSome (h.priorities_eq c)
  rw [Option.isSome_map, priorityOf?, Option.isSome_map, List.isSome_find?] at hpriority
  rw [isSubscribed, h.strays, List.contains_nil, Bool.or_false, hpriority]

/-- An integer has its place among integers. -/
theorem frozen_place (h : Tallies t n) (c : κ) (p : Int) :
    (n.place c (.number (.int p))).frozen = none := by
  have hall : n.ranks.head?.all ((Priority.number (.int p)).comparable ·.1) = true := by
    cases hhead : n.ranks.head? with
    | none => rfl
    | some r =>
      obtain ⟨q, hq, -⟩ := h.ranked.rank r (List.mem_of_mem_head? hhead)
      rw [Option.all_some, hq]
      rfl
  rw [place, if_pos hall, h.frozen]

theorem place (h : Tallies t n) {c : κ} (hc : t.priorities c = none) (p : Int) :
    Tallies (t.enter (.subscribe c p)) (n.place c (.number (.int p))) := by
  simp only [Tables.enter, hc, Option.isSome_none, Bool.false_eq_true, if_false, h.ranks_eq]
  exact of_ranked (h.ranked.enlist hc p) rfl h.strays (h.frozen_place c p)

theorem settles_subscribe (h : Tallies t n) (c : κ) (p : Int) :
    Settles (subscribe c (.int p)) n fun outcome m =>
      Tallies (t.enter (.subscribe c p)) m ∧
        if (t.priorities c).isNone then outcome = .ok ()
        else outcome = .error (.violated "") ∧ m = n := by
  have hc := h.isSubscribed_eq c
  cases hroll : t.priorities c with
  | some q =>
    rw [hroll] at hc
    simpa [subscribe, hc, Tables.enter, hroll] using h
  | none =>
    rw [hroll] at hc
    have hp : Priority.ofDatum? (.int p) = some (.number (.int p)) := rfl
    simpa [subscribe, hc, hp, checkOrder, h.frozen_place] using h.place hroll p

theorem settles_unsubscribe (h : Tallies t n) (c : κ) :
    Settles (unsubscribe c) n fun outcome m =>
      Tallies (t.enter (.unsubscribe c)) m ∧
        if (t.priorities c).isSome then outcome = .ok ()
        else outcome = .error (.violated "") ∧ m = n := by
  have hc := h.isSubscribed_eq c
  cases hroll : t.priorities c with
  | some q =>
    rw [hroll] at hc
    have hleft : Tallies (t.enter (.unsubscribe c))
        { n with ranks := dismiss c n.ranks, strays := [], frozen := none } := by
      simp only [Tables.enter, hroll, h.ranks_eq, leave_eq_dismiss h.ranked hroll]
      exact of_ranked (h.ranked.dismiss c) rfl rfl rfl
    simpa [unsubscribe, hc, h.strays, checkOrder, h.frozen] using hleft
  | none =>
    rw [hroll] at hc
    simpa [unsubscribe, hc, Tables.enter, hroll] using h

/-- A request is accepted as the roll says, and one that is rejected changes nothing. -/
theorem settles_make (h : Tallies t n) (request : Request κ) :
    Settles request.make n fun outcome m =>
      Tallies (t.enter request) m ∧
        if request.isAccepted t.priorities then outcome = .ok ()
        else outcome = .error (.violated "") ∧ m = n := by
  cases request with
  | subscribe c p => exact h.settles_subscribe c p
  | unsubscribe c => exact h.settles_unsubscribe c

end Tallies

/-- However requests went, what a notifier keeps and what it derives is what the tables of the
requests say. -/
theorem ends_requests (name : Datum) (owner : String) (requests : List (Request κ)) :
    Ends (attemptEach Request.make requests) (create name owner) fun _ n =>
      Tallies (tablesAfter requests) n := by
  have hempty : Tallies (tablesAfter ([] : List (Request κ))) (Notifier.create name owner) :=
    .create name owner
  refine ends_attemptEach (I := fun past n => Tallies (tablesAfter past) n) ?_ hempty
  rintro past request - n hn
  refine (hn.settles_make request).mono fun _ m hm => ?_
  rw [tablesAfter, List.foldl_append]
  exact hm.1

end TschLearning.Notifier

namespace TschLearning.Testbed

open TschLearning.Action

/-! ### The notifiers of a testbed -/

/-- A notifier makes its entry unless it is kept at a time beyond all binary64 numbers. -/
theorem obstacle?_triggered (label : String) (value : Datum) (t : Testbed) :
    Journal.obstacle? (.ofComponent .simulation label (.triggered value)) t =
      if t.world.log.threshold = some .debug → (clock? t).all (·.toFloat?.isSome) then none
      else some .tooLarge := by
  have hkeeps : t.world.log.keeps (.ofComponent .simulation label (.triggered value)) =
      decide (t.world.log.threshold = some .debug) := by
    unfold Log.keeps
    cases t.world.log.threshold with
    | none => rfl
    | some l => cases l <;> rfl
  have hdate : (Note.ofComponent .simulation label (.triggered value)).isDatable (clock? t) =
      (clock? t).all (·.toFloat?.isSome) := rfl
  show t.world.log.obstacle? (clock? t) _ = _
  rw [Log.obstacle?, hkeeps, hdate]
  by_cases hl : t.world.log.threshold = some .debug <;> simp [hl, Note.ofComponent, Note.wording]

def callRecord (value : Datum) (name : String) : List Snapshot :=
  [.text name, .text "called", .value value]

/-- The testbed once calls of callbacks were recorded. -/
def called (t : Testbed) (value : Datum) (names : List String) : Testbed :=
  { t with world.records := (names.map (callRecord value)).reverse ++ t.world.records }

/-- A callback without acts does nothing but record its call. -/
theorem ends_callBack {trigger : Nat → Datum → Action Testbed Unit} {value : Datum} {c : Nat}
    {name : String} {t : Testbed} (hidle : callbacks.get? c t = some ⟨name, []⟩) :
    Ends (callBack trigger value c) t fun _ u => u = called t value [name] := by
  rw [callBack, ends_bind]
  exact callbacks.ends_read.2 ⟨_, hidle, rfl⟩

theorem ends_forM_callBack {trigger : Nat → Datum → Action Testbed Unit} {value : Datum}
    {name : Nat → String} {callees : List Nat} {t : Testbed}
    (hidle : ∀ c ∈ callees, callbacks.get? c t = some ⟨name c, []⟩) :
    Ends (callees.forM (callBack trigger value)) t fun _ u =>
      u = called t value (callees.map name) := by
  induction callees generalizing t with
  | nil => exact rfl
  | cons c rest ih =>
    have hcall : Ends (callBack trigger value c) t fun _ u => u = called t value [name c] :=
      ends_callBack (hidle c List.mem_cons_self)
    show Ends (callBack trigger value c >>= fun _ => rest.forM (callBack trigger value)) t _
    refine ends_bind.2 (hcall.mono ?_)
    rintro _ _ rfl
    refine (ih ?_).mono ?_
    · exact fun d hd => hidle d (List.mem_cons_of_mem _ hd)
    · rintro _ _ rfl
      simp [called]

/-- A notifier whose event nobody asked for does nothing but have its callbacks called, in their
order and with the value. -/
theorem ends_trigger {handle : Nat} {value : Datum} {t : Testbed} {u : NotifierUnit}
    {name : Nat → String} (hu : notifiers.get? handle t = some u) (hevent : u.event = none)
    (hidle : ∀ c ∈ u.notifier.callees, callbacks.get? c t = some ⟨name c, []⟩)
    (hlog : t.world.log.threshold = some .debug → (clock? t).all (·.toFloat?.isSome)) :
    Ends (trigger handle value) t fun _ t' =>
      t' = called (Journal.enter (.ofComponent .simulation u.notifier.label (.triggered value)) t)
        value (u.notifier.callees.map name) := by
  have hnote : Journal.obstacle? (.ofComponent .simulation u.notifier.label (.triggered value)) t =
      none := by
    rw [obstacle?_triggered, if_pos hlog]
  show Ends (triggerNested (actsLeft t.world + 1) handle value) t _
  simp only [triggerNested, Notifier.trigger, ends_bind]
  refine notifiers.ends_read.2 ⟨u, hu, ends_note.2 ⟨hnote, ?_⟩⟩
  have hidle : ∀ c ∈ u.notifier.callees, callbacks.get? c
      (Journal.enter (.ofComponent .simulation u.notifier.label (.triggered value)) t) =
        some ⟨name c, []⟩ := hidle
  refine (ends_forM_callBack hidle).mono ?_
  rintro _ _ rfl
  rw [fireEvent, ends_bind]
  refine notifiers.ends_read.2 ⟨u, hu, ?_⟩
  rw [hevent]
  rfl

/-- A notifier that cannot make its entry calls nobody. -/
theorem settles_trigger {handle : Nat} {value : Datum} {t : Testbed} {u : NotifierUnit}
    (hu : notifiers.get? handle t = some u) (hdebug : t.world.log.threshold = some .debug)
    (hlate : (clock? t).all (·.toFloat?.isSome) = false) :
    Settles (trigger handle value) t fun outcome t' => outcome = .error .tooLarge ∧ t' = t := by
  have hnote : Journal.obstacle? (.ofComponent .simulation u.notifier.label (.triggered value)) t =
      some .tooLarge := by
    rw [obstacle?_triggered, if_neg]
    simp [hdebug, hlate]
  have hnested : trigger handle value t = triggerNested (actsLeft t.world + 1) handle value t := rfl
  rw [settles_congr hnested, triggerNested, settles_bind, notifiers.settles_read hu]
  simp only [Notifier.trigger, settles_bind, settles_note, hnote, and_self]

/-- The testbed of a simulation at a time, with a notifier and with callbacks without acts. -/
def ofCallbacks (now : Number) (log : Log) (n : Notifier Nat) (names : List String) : Testbed :=
  { agenda := { Agenda.fresh with now }
    world :=
      { generation := 1
        log
        notifiers := #[⟨n, none⟩]
        callbacks := (names.map fun name => ⟨name, []⟩).toArray } }

end TschLearning.Testbed

namespace TschLearning.Notifier

open TschLearning.Action

variable {κ : Type} [DecidableEq κ]

/-- Whatever was asked of a notifier, it calls those who are subscribed, each of them once and
none before somebody whose latest priority is higher; a request that is rejected changes nothing.
Triggering it with a value makes these calls with the value, one by one, if no call fails and
the journal can take the entry. -/
theorem calls_follow_requests (name : Datum) (owner : String) (requests : List (Request κ)) :
    Ends (attemptEach Request.make requests) (create name owner) fun _ n =>
      n.callees.Nodup ∧
      (∀ c, c ∈ n.callees ↔ (rollAfter requests c).isSome) ∧
      n.callees.Pairwise (fun c d =>
        ∃ p q, rollAfter requests c = some p ∧ rollAfter requests d = some q ∧ q ≤ p) ∧
      (∀ request : Request κ, Settles request.make n fun outcome m =>
        if request.isAccepted (rollAfter requests) then outcome = .ok ()
        else outcome = .error (.violated "") ∧ m = n) ∧
      ∀ {σ : Type} [Journal σ] {I : σ → Prop} (call : Datum → κ → Action σ Unit) (value : Datum),
        (∀ c ∈ n.callees, ∀ s, I s → Ends (call value c) s fun _ t => I t) →
        ∀ (made : List (κ × Datum)) {s : σ},
          I (Journal.enter (.ofComponent .simulation n.label (.triggered value)) s) →
          match Journal.obstacle? (.ofComponent .simulation n.label (.triggered value)) s with
          | none =>
            Ends (n.trigger value (recorded call value)) (made, s) fun _ t =>
              t.1 = made ++ n.callees.map (·, value) ∧
                Ends (n.trigger value (call value)) s fun _ u => u = t.2
          | some f =>
            Settles (n.trigger value (recorded call value)) (made, s) fun outcome t =>
              outcome = .error f ∧ t = (made, s) := by
  refine (ends_requests name owner requests).mono fun _ n hn => ?_
  rw [← priorities_tablesAfter]
  refine ⟨?_, ?_, ?_, fun request => (hn.settles_make request).mono fun _ _ hm => hm.2,
    trigger_recorded n⟩
  · rw [hn.callees_eq]
    exact hn.ranked.nodup_ordered
  · intro c
    rw [hn.callees_eq]
    exact hn.ranked.mem_ordered
  · rw [hn.callees_eq]
    exact hn.ranked.pairwise_ordered

/-- Two callbacks, one of which was subscribed again at another priority. -/
theorem calls_follow_requests_of_two :
    Ends (attemptEach Request.make [.subscribe 0 1, .subscribe 1 2, .subscribe 0 5, .unsubscribe 0,
        .subscribe 0 3, .unsubscribe 2]) (create (.text "m") "" : Notifier Nat) fun _ n =>
      n.callees = [0, 1] ∧
      Ends (n.trigger (.int 7) (recorded (Testbed.callBack fun _ _ => pure ()) (.int 7)))
        ([], Testbed.ofCallbacks (.int 0) (.fresh none) n ["a", "b"]) (fun _ t =>
          t.1 = [(0, .int 7), (1, .int 7)]) ∧
      Ends (Testbed.trigger 0 (.int 7)) (Testbed.ofCallbacks (.int 0) (.fresh none) n ["a", "b"])
        fun _ t => t.world.records =
          [Testbed.callRecord (.int 7) "b", Testbed.callRecord (.int 7) "a"] := by
  obtain ⟨outcomes, n, hrun, hnodup, hmem, hsorted, -, hcalls⟩ := ends_iff.1
    (calls_follow_requests (.text "m") "" [.subscribe 0 1, .subscribe 1 2, .subscribe 0 5,
      .unsubscribe 0, .subscribe 0 3, .unsubscribe 2])
  have hroll : ∀ c : Nat, rollAfter [.subscribe 0 1, .subscribe 1 2, .subscribe 0 5,
      .unsubscribe 0, .subscribe 0 3, .unsubscribe 2] c =
        if c = 0 then some 3 else if c = 1 then some 2 else none := by
    intro c
    simp [rollAfter, Request.enter, Request.isAccepted, Request.accept, Function.update_apply]
    split <;> simp_all
  have hcallees : n.callees = [0, 1] := by
    simp only [hroll] at hmem hsorted
    refine List.Perm.eq_of_pairwise ?_ hsorted ?_ ?_
    · grind
    · simp
    · exact (List.perm_ext_iff_of_nodup hnodup (by decide)).2 fun c => by grind
  have hidle : ∀ c ∈ n.callees, ∀ t : Testbed, t.world.callbacks = #[⟨"a", []⟩, ⟨"b", []⟩] →
      Testbed.callbacks.get? c t = some ⟨["a", "b"].getD c "", []⟩ := by
    rw [hcallees]
    intro c hc t ht
    show t.world.callbacks[c]? = _
    rw [ht]
    obtain rfl | rfl : c = 0 ∨ c = 1 := by simpa using hc
    · rfl
    · rfl
  refine ends_iff.2 ⟨outcomes, n, hrun, hcallees, ?_, ?_⟩
  · have hcalls := hcalls (I := fun t => t.world.callbacks = #[⟨"a", []⟩, ⟨"b", []⟩])
      (Testbed.callBack fun _ _ => pure ()) (.int 7) ?_ []
      (s := Testbed.ofCallbacks (.int 0) (.fresh none) n ["a", "b"]) rfl
    · rw [hcallees] at hcalls
      exact hcalls.mono fun _ t ht => ht.1
    · rintro c hc t ht
      refine (Testbed.ends_callBack (hidle c hc t ht)).mono ?_
      rintro _ _ rfl
      exact ht
  · have hn : Testbed.notifiers.get? 0 (Testbed.ofCallbacks (.int 0) (.fresh none) n ["a", "b"]) =
        some ⟨n, none⟩ := rfl
    have hquiet : (none : Option Level) ≠ some .debug := nofun
    refine (Testbed.ends_trigger hn rfl (fun c hc => hidle c hc _ rfl) hquiet.elim).mono ?_
    rintro _ _ rfl
    dsimp only
    rw [hcallees]
    rfl

/-- At a time beyond all binary64 numbers, a notifier whose entries are kept calls nobody. -/
theorem nobody_called_beyond_floats :
    let n : Notifier Nat := (create (.text "m") "").place 0 (.number (.int 0))
    let t := Testbed.ofCallbacks (.int (2 ^ 1024)) (.fresh (some .debug)) n ["c"]
    Ends (attemptEach Request.make [.subscribe 0 0]) (create (.text "m") "") (fun _ m => m = n) ∧
      n.callees = [0] ∧
      Ends (Testbed.callBack (fun _ _ => pure ()) (.int 1) 0) t (fun _ _ => True) ∧
      Settles (Testbed.trigger 0 (.int 1)) t fun outcome t' =>
        outcome = .error .tooLarge ∧ t' = t := by
  have hlimit : Binary64.integerLimit ≤ (2 ^ 1024 : Int).natAbs := by decide +kernel
  generalize (2 ^ 1024 : Int) = now at hlimit ⊢
  intro n t
  refine ⟨rfl, callees_place_create _ _ _ _, ?_, ?_⟩
  · exact (Testbed.ends_callBack (c := 0) rfl).mono fun _ _ _ => trivial
  · have hlate : (Testbed.clock? t).all (·.toFloat?.isSome) = false := by
      show ((some (Number.int now)).all fun now => now.toFloat?.isSome) = false
      simp [Number.toFloat?, Binary64.ofInt?, hlimit]
    have hu : Testbed.notifiers.get? 0 t = some ⟨n, none⟩ := rfl
    have hdebug : t.world.log.threshold = some .debug := rfl
    clear_value t
    exact Testbed.settles_trigger hu hdebug hlate

end TschLearning.Notifier
