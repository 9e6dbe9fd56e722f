import TschLearning.Proofs.Binary64.Defined
import TschLearning.Proofs.Learning.Rates
import TschLearning.Proofs.Number
import TschLearning.Testbed.Components

/-! Parameters that are handed over again. Values are checked as they are given and kept as they
are converted; what is kept passes the same checks again and is kept as it is, so that copies of
copies are the copies that one would make at once. The packet size is the exception: a size between
zero and one is given as a positive number and kept as zero, and zero is refused. -/

namespace TschLearning

open Binary64

/-! ### Numbers as they are given and as they are kept -/

namespace Number

/-- Not infinite and not undefined. -/
def IsFinite : Number → Prop
  | .int _ => True
  | .float x => x.isFinite = true

instance decidableIsFinite : (n : Number) → Decidable n.IsFinite
  | .int _ => .isTrue trivial
  | .float x => inferInstanceAs (Decidable (x.isFinite = true))

theorem same_float_self {x : Float} (h : x.toModel.unpack ≠ .notANumber) :
    (Number.float x).same (.float x) = true := by
  have hself := beq_self h
  have hnot : ¬x < x := fun hlt => by
    rw [lt_iff, Float.Model.UnpackedFloat.lt, (beq_iff x x).1 hself] at hlt
    cases hlt
  simp [same, compare?, hnot, hself]

theorem IsFinite.same_self {n : Number} (h : n.IsFinite) : n.same n = true := by
  cases n with
  | int i => simp [same_int]
  | float x => exact same_float_self (ne_notANumber_of_isFinite h)

/-- What a number that equals itself is converted to equals itself. -/
theorem same_self_of_toFloat? {n : Number} {x : Float} (hx : n.toFloat? = some x)
    (h : n.same n = true) : (Number.float x).same (.float x) = true := by
  cases n with
  | float y =>
    cases hx
    exact h
  | int i =>
    simp only [toFloat?, ofInt?] at hx
    split at hx
    · cases hx
      exact same_float_self (floatOfInt_ne i)
    · cases hx

theorem compareInt_dyadic (i : Int) (negative : Bool) (m : Nat) (e : Int) :
    compareInt i (.dyadic negative m e)
      = some (compare (i * (fraction m e).2) (signed negative (fraction m e).1)) := rfl

/-- What has no minus sign, but maybe in front of a zero, is not below the integer zero. -/
theorem not_lt_zero {x : Float} (h : NotBelow x.toModel.unpack) :
    Number.lt (.float x) (.int 0) = false := by
  -- zero against a numerator that is not negative
  have hdyadic : ∀ negative m e, 0 ≤ signed negative (fraction m e).1 →
      ((compareInt 0 (.dyadic negative m e)).map Ordering.swap == some .lt) = false := by
    intro negative m e hnum
    rw [compareInt_dyadic, Int.zero_mul]
    rcases hnum.lt_or_eq with hlt | heq
    · rw [Int.compare_eq_lt.2 hlt]
      rfl
    · rw [Int.compare_eq_eq.2 heq]
      rfl
  rw [lt, compare?, value]
  cases hu : x.toModel.unpack with
  | notANumber => rfl
  | zero s =>
    refine hdyadic _ _ _ ?_
    cases s <;> rfl
  | infinity s =>
    rw [hu] at h
    cases h
    rfl
  | finite s m e hm =>
    rw [hu] at h
    cases h
    exact hdyadic _ _ _ (Int.natCast_nonneg _)

/-- The whole part of a number above zero is positive exactly if the number is at least one. -/
theorem truncated?_pos_iff {n : Number} {i : Int} (hi : n.truncated? = some i)
    (hpos : n.le (.int 0) = false) : 1 ≤ i ↔ Number.le (.int 1) n = true := by
  cases n with
  | int j =>
    cases hi
    rw [le_int, decide_eq_true_iff]
  | float x =>
    simp only [truncated?] at hi
    simp only [le, compare?] at hpos ⊢
    cases hv : value x with
    | undefined | infinite => simp [hv] at hi
    | dyadic negative m e =>
      simp only [hv, Option.some.injEq] at hi
      simp only [hv, compareInt_dyadic, Option.map_some, Option.any_some, Ordering.isLE_swap,
        Int.zero_mul, Int.one_mul] at hpos ⊢
      rw [← Bool.not_eq_true, Int.isGE_compare] at hpos
      rw [Int.isLE_compare]
      subst hi
      have hden := fraction_den_pos m e
      cases negative with
      | true =>
        have hneg : signed true (fraction m e).1 = -((fraction m e).1 : Int) := rfl
        omega
      | false =>
        have hdiv : 1 ≤ (fraction m e).1 / (fraction m e).2
            ↔ (fraction m e).2 ≤ (fraction m e).1 := by
          rw [Nat.le_div_iff_mul_le hden, Nat.one_mul]
        exact Int.ofNat_le.trans (hdiv.trans Int.ofNat_le.symm)

end Number

def Datum.IsFinite (d : Datum) : Prop := ∃ n, d.number? = some n ∧ n.IsFinite

theorem Datum.truncated?_of_toInt {d : Datum} {n : Number} {i : Int} (hn : d.number? = some n)
    (hi : d.toInt = .ok i) : n.truncated? = some i := by
  cases d with
  | bool b =>
    cases hn
    cases hi
    rfl
  | int j =>
    cases hn
    cases hi
    rfl
  | float x =>
    cases hn
    simp only [Datum.toInt, Datum.number?] at hi
    split at hi
    · rename_i j hj
      cases hi
      exact hj
    · cases hi
  | _ => cases hn

/-! ### One parameter -/

namespace Parameters

/-- What is checked of the value of a parameter. -/
def checkOf (n : ParameterName) (d : Datum) : Except Fault Unit :=
  match n with
  | .alpha | .gamma | .epsilon | .sigma | .epsilonCap | .packetProbability =>
    checkProbability n.label d
  | .deactivationThreshold | .epsilonScale => checkNotNegative n.label d
  | .packetSize => checkPositive n.label d
  | .successReward | .failureReward | .exploreWhileSettling => .ok ()

def kept (n : ParameterName) (d : Datum) : Except Fault Datum :=
  match n with
  | .deactivationThreshold | .packetSize => do return .int (← d.toInt).toNat
  | .exploreWhileSettling => .ok (.bool d.truthy)
  | _ => do return .float (← d.toFloat)

/-- What is kept is kept as it is. -/
theorem kept_kept {n : ParameterName} {d e : Datum} (h : kept n d = .ok e) : kept n e = .ok e := by
  cases n with
  | deactivationThreshold | packetSize =>
    obtain ⟨i, -, he⟩ := bind_eq_ok.1 h
    cases he
    rfl
  | exploreWhileSettling =>
    cases h
    rfl
  | _ =>
    obtain ⟨x, -, he⟩ := bind_eq_ok.1 h
    cases he
    rfl

theorem comparable_of_number? {d : Datum} {n : Number} (h : d.number? = some n) :
    d.comparable = .ok n := by
  unfold Datum.comparable
  simp only [h]

theorem checkProbability_of_number? {name : String} {d : Datum} {n : Number}
    (hn : d.number? = some n) (h : n.isProbability = true) : checkProbability name d = .ok () := by
  simp only [checkProbability, comparable_of_number? hn, h, bind, Except.bind]
  rfl

theorem checkNotNegative_of_number? {name : String} {d : Datum} {n : Number}
    (hn : d.number? = some n) (h : n.lt (.int 0) = false) : checkNotNegative name d = .ok () := by
  simp only [checkNotNegative, comparable_of_number? hn, h, bind, Except.bind]
  rfl

theorem checkPositive_of_number? {name : String} {d : Datum} {n : Number}
    (hn : d.number? = some n) :
    checkPositive name d
      = if n.le (.int 0) = true then .error (.mustBePositive name d) else .ok () := by
  simp only [checkPositive, comparable_of_number? hn, bind, Except.bind]
  rfl

/-- The nearest number to a probability is one. -/
theorem isProbability_float {n : Number} {x : Float} (hx : n.toFloat? = some x)
    (h : n.isProbability = true) : (Number.float x).isProbability = true := by
  cases n with
  | float y =>
    cases hx
    exact h
  | int i =>
    obtain ⟨h0, h1⟩ := Bool.and_eq_true_iff.1 h
    rw [Number.le_int, decide_eq_true_iff] at h0 h1
    simp only [Number.toFloat?, ofInt?] at hx
    split at hx
    · cases hx
      obtain rfl | rfl : i = 0 ∨ i = 1 := by omega
      · decide +kernel
      · decide +kernel
    · cases hx

/-- What is kept passes the same check again, but for a packet size. -/
theorem checkOf_kept {n : ParameterName} (hn : n ≠ .packetSize) {d e : Datum}
    (hcheck : checkOf n d = .ok ()) (h : kept n d = .ok e) : checkOf n e = .ok () := by
  cases n with
  | packetSize => exact absurd rfl hn
  | exploreWhileSettling | successReward | failureReward => rfl
  | deactivationThreshold =>
    obtain ⟨i, -, he⟩ := bind_eq_ok.1 h
    cases he
    refine checkNotNegative_of_number? rfl ?_
    rw [Number.lt_int, decide_eq_false_iff_not]
    omega
  | epsilonScale =>
    obtain ⟨x, hx, he⟩ := bind_eq_ok.1 h
    cases he
    obtain ⟨m, hm, hnot⟩ := checkNotNegative_eq_ok hcheck
    have hx' := Datum.number?_eq_of_toFloat hm hx
    exact checkNotNegative_of_number? rfl (Number.not_lt_zero (Number.toFloat?_notBelow hx' hnot))
  | _ =>
    obtain ⟨x, hx, he⟩ := bind_eq_ok.1 h
    cases he
    obtain ⟨m, hm, hprobability⟩ := checkProbability_eq_ok hcheck
    have hx' := Datum.number?_eq_of_toFloat hm hx
    exact checkProbability_of_number? rfl (isProbability_float hx' hprobability)

/-- A packet size that is kept passes again unless it is zero. -/
theorem checkOf_packetSize (size : Nat) :
    checkOf .packetSize (.int size)
      = if size = 0 then .error (.mustBePositive "packet_size" (.int size)) else .ok () := by
  have hle : (Number.int size).le (.int 0) = decide (size = 0) := by
    rw [Number.le_int, decide_eq_decide]
    omega
  show checkPositive "packet_size" (.int size) = _
  rw [checkPositive_of_number? rfl, hle]
  simp only [decide_eq_true_iff]

/-- The size that is kept is zero unless the one that was given is at least one. -/
theorem kept_packetSize {d : Datum} {size : Nat} (hcheck : checkOf .packetSize d = .ok ())
    (h : kept .packetSize d = .ok (.int size)) :
    ∃ n, d.number? = some n ∧ (1 ≤ size ↔ Number.le (.int 1) n = true) := by
  obtain ⟨i, hi, he⟩ := bind_eq_ok.1 h
  cases he
  obtain ⟨n, hn, hpos⟩ := bind_eq_ok.1 hcheck
  have hn := Datum.comparable_eq_ok hn
  have hnot : n.le (.int 0) = false := by
    cases hle : n.le (.int 0) with
    | false => rfl
    | true =>
      rw [hle] at hpos
      cases hpos
  refine ⟨n, hn, ?_⟩
  rw [← Number.truncated?_pos_iff (Datum.truncated?_of_toInt hn hi) hnot]
  omega

theorem sameValue_kept {n : ParameterName} {d e : Datum}
    (hd : n = .exploreWhileSettling ∨ sameValue d d = true) (h : kept n d = .ok e) :
    sameValue e e = true := by
  cases n with
  | deactivationThreshold | packetSize =>
    obtain ⟨i, -, he⟩ := bind_eq_ok.1 h
    cases he
    simp [sameValue, Datum.number?, Number.same_int]
  | exploreWhileSettling =>
    cases h
    simp [sameValue, Datum.number?, Number.same_int]
  | _ =>
    obtain ⟨x, hx, he⟩ := bind_eq_ok.1 h
    cases he
    have hd := hd.resolve_left (by decide)
    cases hn : d.number? with
    | none => simp [sameValue, hn] at hd
    | some m =>
      simp only [sameValue, hn] at hd
      exact Number.same_self_of_toFloat? (Datum.number?_eq_of_toFloat hn hx) hd

/-! ### All of them -/

/-- If no other parameter is refused, the packet size decides. -/
theorem check_eq {v : ParameterInput} (h : ∀ n ≠ .packetSize, checkOf n (v n) = .ok ()) :
    check v = checkOf .packetSize (v .packetSize) := by
  have hprobability : ∀ n ∈ [ParameterName.alpha, .gamma, .epsilon, .sigma, .epsilonCap,
      .packetProbability], checkProbability n.label (v n) = .ok () := by
    simp only [List.forall_mem_cons]
    exact ⟨h .alpha (by decide), h .gamma (by decide), h .epsilon (by decide),
      h .sigma (by decide), h .epsilonCap (by decide), h .packetProbability (by decide),
      List.forall_mem_nil _⟩
  have hamount : ∀ n ∈ [ParameterName.deactivationThreshold, .epsilonScale],
      checkNotNegative n.label (v n) = .ok () := by
    simp only [List.forall_mem_cons]
    exact ⟨h .deactivationThreshold (by decide), h .epsilonScale (by decide), List.forall_mem_nil _⟩
  unfold check
  rw [forIn_of_ok hprobability, forIn_of_ok hamount]
  rfl

theorem check_eq_ok_iff {v : ParameterInput} :
    check v = .ok () ↔ ∀ n, checkOf n (v n) = .ok () := by
  constructor
  · intro h n
    obtain ⟨_, hprobabilities, h⟩ := bind_eq_ok.1 h
    obtain ⟨_, hamounts, hsize⟩ := bind_eq_ok.1 h
    cases n with
    | successReward | failureReward | exploreWhileSettling => rfl
    | packetSize => exact hsize
    | deactivationThreshold | epsilonScale => exact forIn_eq_ok hamounts _ (by decide)
    | _ => exact forIn_eq_ok hprobabilities _ (by decide)
  · intro h
    rw [check_eq fun n _ => h n]
    exact h .packetSize

theorem ofInput_eq_ok_iff {v : ParameterInput} {p : Parameters Float} :
    ofInput v = .ok p ↔
      (∀ n, checkOf n (v n) = .ok ()) ∧ ∀ n, kept n (v n) = .ok (p.toInput n) := by
  rw [← check_eq_ok_iff]
  constructor
  · intro h
    simp only [ofInput, bind_eq_ok] at h
    obtain ⟨_, hcheck, alpha, halpha, gamma, hgamma, epsilon, hepsilon, sigma, hsigma, success,
      hsuccess, failure, hfailure, threshold, hthreshold, cap, hcap, scale, hscale, probability,
      hprobability, size, hsize, hp⟩ := h
    cases hp
    refine ⟨hcheck, fun n => ?_⟩
    cases n <;> simp only [kept, *] <;> rfl
  · rintro ⟨hcheck, hkept⟩
    have hfloat : ∀ {d : Datum} {x : Float},
        (do return Datum.float (← d.toFloat) : Except Fault Datum) = .ok (.float x) →
          d.toFloat = .ok x := by
      intro d x h
      obtain ⟨y, hy, he⟩ := bind_eq_ok.1 h
      cases he
      exact hy
    have hcount : ∀ {d : Datum} {size : Nat},
        (do return Datum.int (← d.toInt).toNat : Except Fault Datum) = .ok (.int size) →
          ∃ i, d.toInt = .ok i ∧ i.toNat = size := by
      intro d size h
      obtain ⟨i, hi, he⟩ := bind_eq_ok.1 h
      exact ⟨i, hi, Int.ofNat.inj (Datum.int.inj (Except.ok.inj he))⟩
    obtain ⟨threshold, hthreshold, hthreshold'⟩ := hcount (hkept .deactivationThreshold)
    obtain ⟨size, hsize, hsize'⟩ := hcount (hkept .packetSize)
    have hexplore := Datum.bool.inj (Except.ok.inj (hkept .exploreWhileSettling))
    simp only [ofInput, hcheck, hfloat (hkept .alpha), hfloat (hkept .gamma),
      hfloat (hkept .epsilon), hfloat (hkept .sigma), hfloat (hkept .successReward),
      hfloat (hkept .failureReward), hthreshold, hthreshold', hfloat (hkept .epsilonCap),
      hfloat (hkept .epsilonScale), hfloat (hkept .packetProbability), hsize, hsize', hexplore,
      bind, Except.bind]
    rfl

/-- The packet size is rounded toward zero. -/
theorem packetSize_eq {v : ParameterInput} {p : Parameters Float} (hp : ofInput v = .ok p) {i : Int}
    (hi : (v .packetSize).toInt.toOption = some i) : p.packetSize = i.toNat := by
  obtain ⟨j, hj, hsize⟩ := bind_eq_ok.1 ((ofInput_eq_ok_iff.1 hp).2 .packetSize)
  rw [hj] at hi
  cases hi
  exact (Int.ofNat.inj (Datum.int.inj (Except.ok.inj hsize))).symm

/-! ### Copies -/

/-- The fault of a packet size that was kept as zero. -/
def sizeFault : Fault := .mustBePositive "packet_size" (.int 0)

/-- Some values in place of the ones that are kept: what comes of it is what comes of putting them
in place of the ones that were given, unless that hands over a packet size of zero. -/
theorem ofInput_override_toInput {v : ParameterInput} {b : List (ParameterName × Datum)}
    {q r : Parameters Float} (hq : ofInput v = .ok q) (hr : ofInput (v.override b) = .ok r) :
    ofInput (q.toInput.override b)
      = if q.packetSize = 0 ∧ b.lookup .packetSize = none then .error sizeFault else .ok r := by
  obtain ⟨hcheckq, hkeptq⟩ := ofInput_eq_ok_iff.1 hq
  obtain ⟨hcheckr, hkeptr⟩ := ofInput_eq_ok_iff.1 hr
  have hkept : ∀ n, kept n (q.toInput.override b n) = .ok (r.toInput n) := by
    intro n
    have hr := hkeptr n
    unfold ParameterInput.override at hr ⊢
    cases hb : b.lookup n with
    | some d =>
      rw [hb] at hr
      exact hr
    | none =>
      rw [hb] at hr
      have hsame : q.toInput n = r.toInput n := Except.ok.inj ((hkeptq n).symm.trans hr)
      rw [Option.getD_none, kept_kept (hkeptq n), hsame]
  have hcheck : ∀ n, n ≠ .packetSize ∨ b.lookup n ≠ none →
      checkOf n (q.toInput.override b n) = .ok () := by
    intro n hn
    have hr := hcheckr n
    unfold ParameterInput.override at hr ⊢
    cases hb : b.lookup n with
    | some d =>
      rw [hb] at hr
      exact hr
    | none =>
      rw [Option.getD_none]
      exact checkOf_kept (hn.resolve_right fun h => h hb) (hcheckq n) (hkeptq n)
  by_cases hgiven : b.lookup .packetSize = none
  · have hsize : check (q.toInput.override b) = checkOf .packetSize (.int q.packetSize) := by
      rw [check_eq fun n hn => hcheck n (.inl hn), ParameterInput.override, hgiven]
      rfl
    rw [checkOf_packetSize] at hsize
    by_cases hzero : q.packetSize = 0
    · rw [if_pos ⟨hzero, hgiven⟩]
      rw [if_pos hzero, hzero] at hsize
      unfold ofInput
      rw [hsize]
      rfl
    · rw [if_neg fun h => hzero h.1]
      rw [if_neg hzero] at hsize
      exact ofInput_eq_ok_iff.2 ⟨check_eq_ok_iff.1 hsize, hkept⟩
  · rw [if_neg fun h => hgiven h.2]
    refine ofInput_eq_ok_iff.2 ⟨fun n => hcheck n ?_, hkept⟩
    by_cases hn : n = .packetSize
    · exact .inr (hn ▸ hgiven)
    · exact .inl hn

theorem ofLabel?_label (n : ParameterName) : ParameterName.ofLabel? n.label = some n := by
  cases n <;> decide

theorem label_of_ofLabel? {s : String} {n : ParameterName}
    (h : ParameterName.ofLabel? s = some n) : n.label = s :=
  beq_iff_eq.1 (List.find?_some h :)

/-- Changes are refused unless all of their names are known. -/
theorem namedChanges_eq_ok_iff {changes : List (String × Datum)}
    {named : List (ParameterName × Datum)} :
    namedChanges changes = .ok named ↔ (∀ c ∈ changes, (ParameterName.ofLabel? c.1).isSome) ∧
      named = changes.filterMap fun c => (ParameterName.ofLabel? c.1).map (·, c.2) := by
  have hknown : (changes.filter fun c => (ParameterName.ofLabel? c.1).isNone) = [] ↔
      ∀ c ∈ changes, (ParameterName.ofLabel? c.1).isSome := by
    simp [List.filter_eq_nil_iff, Option.isSome_iff_ne_none]
  rw [← hknown]
  unfold namedChanges
  split
  · rename_i hnone
    simp [hnone, eq_comm]
  · rename_i hsome
    exact ⟨nofun, fun h => (hsome h.1).elim⟩

theorem namedChanges_append {a b : List (String × Datum)} {named : List (ParameterName × Datum)}
    (h : namedChanges (b ++ a) = .ok named) :
    ∃ later earlier, namedChanges b = .ok later ∧ namedChanges a = .ok earlier ∧
      named = later ++ earlier := by
  obtain ⟨hknown, rfl⟩ := namedChanges_eq_ok_iff.1 h
  obtain ⟨hb, ha⟩ := List.forall_mem_append.1 hknown
  exact ⟨_, _, namedChanges_eq_ok_iff.2 ⟨hb, rfl⟩, namedChanges_eq_ok_iff.2 ⟨ha, rfl⟩,
    List.filterMap_append⟩

/-- A change stands under its name. -/
theorem lookup_of_namedChanges {changes : List (String × Datum)}
    {named : List (ParameterName × Datum)} (h : namedChanges changes = .ok named)
    (n : ParameterName) : named.lookup n = changes.lookup n.label := by
  obtain ⟨hknown, rfl⟩ := namedChanges_eq_ok_iff.1 h
  clear h
  induction changes with
  | nil => rfl
  | cons c rest ih =>
    obtain ⟨s, d⟩ := c
    obtain ⟨hs, hrest⟩ := List.forall_mem_cons.1 hknown
    obtain ⟨m, hm⟩ := Option.isSome_iff_exists.1 hs
    obtain rfl : m.label = s := label_of_ofLabel? hm
    simp only [List.filterMap_cons, ofLabel?_label, Option.map_some, List.lookup_cons]
    by_cases hn : n = m
    · subst hn
      simp only [beq_self_eq_true]
    · have hlabel : n.label ≠ m.label := fun heq => hn <| Option.some.inj <| by
        rw [← ofLabel?_label n, heq, ofLabel?_label]
      simp only [beq_false_of_ne hn, beq_false_of_ne hlabel]
      exact ih hrest

theorem override_append (v : ParameterInput) (b a : List (ParameterName × Datum)) :
    v.override (b ++ a) = (v.override a).override b := by
  funext n
  unfold ParameterInput.override
  rw [List.lookup_append]
  cases b.lookup n <;> rfl

/-- A copy of a copy is the copy that puts the later values in place of the earlier ones, unless it
hands over a packet size of zero. -/
theorem replace_replace {p q r : Parameters Float} {a b : List (String × Datum)}
    (hq : p.replace a = .ok q) (hr : p.replace (b ++ a) = .ok r) :
    q.replace b = if q.packetSize = 0 ∧ b.lookup "packet_size" = none then .error sizeFault
      else .ok r := by
  obtain ⟨_, hnamed, hr⟩ := bind_eq_ok.1 hr
  obtain ⟨later, earlier, hb, ha, rfl⟩ := namedChanges_append hnamed
  obtain ⟨_, hnamed, hq⟩ := bind_eq_ok.1 hq
  cases ha.symm.trans hnamed
  rw [override_append] at hr
  rw [replace, hb]
  show ofInput (q.toInput.override later) = _
  rw [ofInput_override_toInput hq hr, lookup_of_namedChanges hb]
  rfl

/-- A copy without changes is equal, unless it hands over a packet size of zero. -/
theorem replace_nil {v : ParameterInput} {p : Parameters Float} (hp : ofInput v = .ok p) :
    p.replace [] = if p.packetSize = 0 then .error sizeFault else .ok p := by
  show ofInput (p.toInput.override []) = _
  rw [ofInput_override_toInput (b := []) hp hp]
  simp only [List.lookup_nil, and_true]

/-- Values that equal themselves, as all numbers but the undefined ones do. -/
def Defined (v : ParameterInput) : Prop := ∀ n, n = .exploreWhileSettling ∨ sameValue (v n) (v n)

theorem sameValue_of_isFinite {d : Datum} (h : d.IsFinite) : sameValue d d = true := by
  obtain ⟨n, hn, hfinite⟩ := h
  simp only [sameValue, hn]
  exact hfinite.same_self

theorem Defined.override {v : ParameterInput} (h : Defined v) {changes : List (String × Datum)}
    {named : List (ParameterName × Datum)} (hnamed : namedChanges changes = .ok named)
    (hfinite : ∀ c ∈ changes, c.1 = "explore_while_settling" ∨ c.2.IsFinite) :
    Defined (v.override named) := by
  intro n
  unfold ParameterInput.override
  rw [lookup_of_namedChanges hnamed]
  cases hd : changes.lookup n.label with
  | none => exact h n
  | some d =>
    obtain ⟨_, _, rfl, -⟩ := List.lookup_eq_some_iff.1 hd
    refine (hfinite (n.label, d) (by simp)).imp (fun hexplore => ?_) sameValue_of_isFinite
    rw [← Option.some.injEq, ← ofLabel?_label n]
    exact congrArg ParameterName.ofLabel? hexplore

/-- Parameters equal themselves, wherever their values come from. -/
theorem sameParameters_self {v : ParameterInput} {p : Parameters Float} (hv : Defined v)
    (hp : ofInput v = .ok p) (o o' : ParameterName → Nat) :
    Testbed.sameParameters ⟨p, o⟩ ⟨p, o'⟩ = true := by
  refine List.all_eq_true.2 fun n _ => ?_
  have hsame := sameValue_kept (hv n) ((ofInput_eq_ok_iff.1 hp).2 n)
  simp only [hsame, Bool.true_or]

/-- Parameters that were made of finite numbers pass the checks again exactly if the packet size
that they keep is not zero, which is so exactly if the one that was given was at least one. As long
as that is so, a copy without changes is equal, and a copy of a copy is the copy with the later
changes in place of the earlier ones; a copy that is given a packet size of its own is the same in
any case. A copy that is refused, for whatever reason, leaves everything as it is. -/
theorem kept_values_revalidate {v : ParameterInput}
    (hv : ∀ n, n = .exploreWhileSettling ∨ (v n).IsFinite) {p : Parameters Float}
    (hp : ofInput v = .ok p) :
    (check p.toInput = .ok () ↔ p.packetSize ≠ 0) ∧
    (∃ size, (v .packetSize).number? = some size ∧
      (p.packetSize ≠ 0 ↔ Number.le (.int 1) size = true)) ∧
    p.replace [] = (if p.packetSize = 0 then .error sizeFault else .ok p) ∧
    (∀ o o', Testbed.sameParameters ⟨p, o⟩ ⟨p, o'⟩ = true) ∧
    (∀ (a b : List (String × Datum)) (q r : Parameters Float),
      (∀ c ∈ b ++ a, c.1 = "explore_while_settling" ∨ c.2.IsFinite) →
      p.replace a = .ok q → p.replace (b ++ a) = .ok r →
      q.replace b = (if q.packetSize = 0 ∧ b.lookup "packet_size" = none then .error sizeFault
        else .ok r) ∧
      ∀ o o', Testbed.sameParameters ⟨r, o⟩ ⟨r, o'⟩ = true) ∧
    ∀ (changes : List (String × Datum)) (f : Fault), p.replace changes = .error f →
      ∀ o t, Testbed.replaceParameters ⟨p, o⟩ changes t = .error f t := by
  obtain ⟨hcheck, hkept⟩ := ofInput_eq_ok_iff.1 hp
  have hdefined : Defined v := fun n => (hv n).imp_right sameValue_of_isFinite
  have hagain : check p.toInput = checkOf .packetSize (.int p.packetSize) :=
    check_eq fun n hn => checkOf_kept hn (hcheck n) (hkept n)
  refine ⟨?_, ?_, replace_nil hp, sameParameters_self hdefined hp, ?_, ?_⟩
  · rw [hagain, checkOf_packetSize]
    by_cases hzero : p.packetSize = 0 <;> simp [hzero]
  · obtain ⟨size, hsize, hiff⟩ := kept_packetSize (hcheck .packetSize) (hkept .packetSize)
    exact ⟨size, hsize, Nat.one_le_iff_ne_zero.symm.trans hiff⟩
  · intro a b q r hfinite hq hr
    refine ⟨replace_replace hq hr, ?_⟩
    obtain ⟨named, hnamed, hr⟩ := bind_eq_ok.1 hr
    have hown : Defined p.toInput := fun n => .inr (sameValue_kept (hdefined n) (hkept n))
    exact sameParameters_self (hown.override hnamed hfinite) hr
  · intro changes f hf o t
    unfold Testbed.replaceParameters
    simp only [hf]
    rfl

/-- The default parameters, and a copy with a packet size of a half. Another copy of the copy is
refused, although the two changes at once are accepted, unless it has a packet size of its own. -/
theorem kept_values_revalidate_defaults :
    ∃ p q r r', ofInput ParameterInput.defaults = .ok p ∧
      p.replace [("packet_size", .float 0.5)] = .ok q ∧
      p.replace [("alpha", .int 1), ("packet_size", .float 0.5)] = .ok r ∧
      p.replace [("packet_size", .int 7), ("packet_size", .float 0.5)] = .ok r' ∧
      p.replace [] = .ok p ∧ q.replace [("alpha", .int 1)] = .error sizeFault ∧
      q.replace [("packet_size", .int 7)] = .ok r' := by
  have hfinite : ∀ n, n = .exploreWhileSettling ∨ (ParameterInput.defaults n).IsFinite := by
    intro n
    cases n with
    | exploreWhileSettling => exact .inl rfl
    | deactivationThreshold | packetSize => exact .inr ⟨_, rfl, trivial⟩
    | _ => exact .inr ⟨_, rfl, by decide +kernel⟩
  have hok : ∀ changes ∈ [[("packet_size", .float 0.5)],
      [("alpha", .int 1), ("packet_size", .float 0.5)],
      [("packet_size", .int 7), ("packet_size", .float 0.5)]],
      (do (← ofInput ParameterInput.defaults).replace changes).toBool = true := by
    decide +kernel
  have hhalf : (Datum.float 0.5).toInt.toOption = some 0 := by decide +kernel
  have hpair : ∀ i : Int, ∀ name : String,
      ∀ c ∈ [(name, Datum.int i)] ++ [("packet_size", Datum.float 0.5)],
        c.1 = "explore_while_settling" ∨ c.2.IsFinite := by
    intro i name
    simp only [List.cons_append, List.nil_append, List.forall_mem_cons]
    exact ⟨.inr ⟨_, rfl, trivial⟩, .inr ⟨_, rfl, by decide +kernel⟩, List.forall_mem_nil _⟩
  simp only [List.forall_mem_cons] at hok
  cases hp : ofInput ParameterInput.defaults with
  | error f =>
    rw [hp] at hok
    cases hok.1
  | ok p =>
    have hmade : ∀ {changes : List (String × Datum)},
        (do (← Except.ok (ε := Fault) p).replace changes).toBool = true →
          ∃ q, p.replace changes = .ok q := by
      intro changes h
      cases hq : p.replace changes with
      | ok q => exact ⟨q, rfl⟩
      | error f =>
        rw [show (Except.ok p >>= (·.replace changes)) = p.replace changes from rfl, hq] at h
        cases h
    rw [hp] at hok
    obtain ⟨q, hq⟩ := hmade hok.1
    obtain ⟨r, hr⟩ := hmade hok.2.1
    obtain ⟨r', hr'⟩ := hmade hok.2.2.1
    obtain ⟨-, -, hnil, -, hagain, -⟩ := kept_values_revalidate hfinite hp
    have hsize : q.packetSize = 0 := packetSize_eq hq hhalf
    have hfifty : p.packetSize = 50 := packetSize_eq hp rfl
    obtain ⟨hrefused, -⟩ := hagain _ _ q r (hpair 1 "alpha") hq hr
    obtain ⟨hown, -⟩ := hagain _ _ q r' (hpair 7 "packet_size") hq hr'
    rw [if_neg (by rw [hfifty]; decide)] at hnil
    rw [if_pos ⟨hsize, rfl⟩] at hrefused
    rw [if_neg fun h => nomatch h.2] at hown
    exact ⟨p, q, r, r', rfl, hq, hr, hr', hnil, hrefused, hown⟩

/-- A packet size of a half is accepted and kept as zero, which is refused. -/
theorem half_packet_refused_again :
    ∃ p, ofInput (ParameterInput.defaults.override [(.packetSize, .float 0.5)]) = .ok p ∧
      check p.toInput = .error (.mustBePositive "packet_size" (.int 0)) ∧
      p.replace [] = .error (.mustBePositive "packet_size" (.int 0)) := by
  have hok : (ofInput (ParameterInput.defaults.override [(.packetSize, .float 0.5)])).toBool
      = true := by decide +kernel
  cases hp : ofInput (ParameterInput.defaults.override [(.packetSize, .float 0.5)]) with
  | error f =>
    rw [hp] at hok
    cases hok
  | ok p =>
    obtain ⟨hcheck, hkept⟩ := ofInput_eq_ok_iff.1 hp
    have hhalf : (Datum.float 0.5).toInt.toOption = some 0 := by decide +kernel
    have hzero : p.packetSize = 0 := packetSize_eq hp hhalf
    refine ⟨p, rfl, ?_, ?_⟩
    · rw [check_eq fun n hn => checkOf_kept hn (hcheck n) (hkept n)]
      show checkOf .packetSize (.int p.packetSize) = _
      rw [checkOf_packetSize, if_pos hzero, hzero]
      rfl
    · rw [replace_nil hp, if_pos hzero, sizeFault]

end Parameters
end TschLearning
