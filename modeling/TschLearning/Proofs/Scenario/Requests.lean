import Mathlib.Data.List.Basic

/-! Keeping account of the slots that frames wait for their confirmation, by someone who knows one
request only. -/

namespace TschLearning

/-- Frames on their way, by the slots of their requests, and an account of the slots waited that
knows one request only. `due` is what was waited for those confirmed so far, and `prompt` says that
none of them had another one behind it. -/
structure Balanced (bound : Nat) (dates : List Nat) (requested : Option Nat) (delay : Nat)
    (due : Int) (prompt : Prop) : Prop where
  ascending : dates.Pairwise (· < ·)
  below : ∀ n ∈ dates, n < bound
  last_eq : ∀ r, requested = some r → ∀ n, dates.getLast? = some n → n = r
  delay_le : (delay : Int) ≤ due
  delay_eq_iff : (delay : Int) = due ↔ prompt
  known : prompt → dates ≠ [] → requested ≠ none

namespace Balanced

variable {bound asn n delay : Nat} {dates : List Nat} {requested : Option Nat} {due : Int}
  {prompt : Prop}

theorem empty (bound : Nat) (requested : Option Nat) : Balanced bound [] requested 0 0 True where
  ascending := .nil
  below := nofun
  last_eq := nofun
  delay_le := Int.le_refl 0
  delay_eq_iff := iff_of_true rfl trivial
  known _ h := absurd rfl h

theorem weaken (h : Balanced bound dates requested delay due prompt) (hle : bound ≤ asn) :
    Balanced asn dates requested delay due prompt :=
  { h with below := fun n hn => Nat.lt_of_lt_of_le (h.below n hn) hle }

theorem request (h : Balanced asn dates requested delay due prompt) :
    Balanced (asn + 1) (dates ++ [asn]) (some asn) delay due prompt where
  ascending := by
    refine List.pairwise_append.2 ⟨h.ascending, List.pairwise_singleton .., ?_⟩
    intro n hn m hm
    rw [List.mem_singleton.1 hm]
    exact h.below n hn
  below := by
    intro n hn
    rcases List.mem_append.1 hn with hn | hn
    · exact Nat.lt_succ_of_lt (h.below n hn)
    · rw [List.mem_singleton.1 hn]
      exact Nat.lt_succ_self asn
  last_eq := by
    rintro r ⟨⟩ n hn
    rw [List.getLast?_concat, Option.some.injEq] at hn
    exact hn.symm
  delay_le := h.delay_le
  delay_eq_iff := h.delay_eq_iff
  known _ _ := nofun

theorem fail (h : Balanced bound (n :: dates) requested delay due prompt) :
    Balanced bound dates requested delay due prompt where
  ascending := (List.pairwise_cons.1 h.ascending).2
  below m hm := h.below m (List.mem_cons_of_mem n hm)
  last_eq r hr m hm := by
    refine h.last_eq r hr m ?_
    cases dates with
    | nil => cases hm
    | cons d rest => rwa [List.getLast?_cons_cons]
  delay_le := h.delay_le
  delay_eq_iff := h.delay_eq_iff
  known hp _ := h.known hp (List.cons_ne_nil _ _)

/-- What is added to the account by a confirmation. -/
def added (asn : Nat) (requested : Option Nat) : Nat := (requested.map (asn - ·)).getD 0

theorem confirm (h : Balanced (asn + 1) (n :: dates) requested delay due prompt) :
    Balanced (asn + 1) dates none (delay + added asn requested) (due + ((asn : Int) - n))
      (prompt ∧ dates = []) := by
  have hn : n ≤ asn := Nat.lt_succ_iff.1 (h.below n List.mem_cons_self)
  have hlast : ∀ r, requested = some r → n ≤ r ∧ r ≤ asn ∧ (dates = [] ↔ r = n) := by
    intro r hr
    cases dates with
    | nil =>
      obtain rfl := h.last_eq r hr n rfl
      exact ⟨Nat.le_refl n, hn, fun _ => rfl, fun _ => rfl⟩
    | cons d rest =>
      obtain ⟨m, hm⟩ : ∃ m, (d :: rest).getLast? = some m :=
        ⟨_, List.getLast?_eq_getLast_of_ne_nil (List.cons_ne_nil _ _)⟩
      obtain rfl := h.last_eq r hr m (by rw [List.getLast?_cons_cons]; exact hm)
      have hmem := List.mem_of_getLast? hm
      have hlt := (List.pairwise_cons.1 h.ascending).1 m hmem
      have hb := h.below m (List.mem_cons_of_mem n hmem)
      simp only [List.cons_ne_nil, false_iff]
      omega
  have hle := h.delay_le
  have hiff := h.delay_eq_iff
  refine ⟨(List.pairwise_cons.1 h.ascending).2, fun m hm => h.below m (List.mem_cons_of_mem n hm),
    nofun, ?_, ?_, fun hp hne => absurd hp.2 hne⟩
  · cases hr : requested with
    | none => simp only [added, Option.map_none, Option.getD_none]; omega
    | some r =>
      obtain ⟨h1, h2, h3⟩ := hlast r hr
      simp only [added, Option.map_some, Option.getD_some]
      omega
  · cases hr : requested with
    | none =>
      have hp : ¬prompt := fun hp => h.known hp (List.cons_ne_nil _ _) hr
      have hlt : (delay : Int) ≠ due := fun he => hp (hiff.1 he)
      simp only [added, Option.map_none, Option.getD_none, hp, false_and, iff_false]
      omega
    | some r =>
      obtain ⟨h1, h2, h3⟩ := hlast r hr
      rw [← hiff, h3]
      simp only [added, Option.map_some, Option.getD_some]
      omega

end Balanced

end TschLearning
