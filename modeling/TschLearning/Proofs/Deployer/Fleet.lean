import TschLearning.Proofs.Action.Settles
import TschLearning.Proofs.Mac.Admission
import TschLearning.Proofs.Mac.Calls

/-! Link edits at several MAC layers in turn, followed by way of the table of every one of
them. Each edit that is made leaves room for taking it back, so a row of them can be undone in
reverse order wherever it breaks off. -/

namespace TschLearning

/-- Simulated MAC layers on a shelf, as they are apart from their links. -/
structure Fleet (μ κ σ ν : Type) [Journal σ] where
  shelf : Shelf μ (Mac κ) σ
  rest : σ → ν
  lawful : shelf.Lawful rest
  labels : μ → String
  ids : List μ
  nodup_ids : ids.Nodup
  mac : μ → Mac κ
  sized : ∀ i ∈ ids, (mac i).IsSized

namespace Fleet

open TschLearning.Action LinkDeployer

variable {μ κ σ ν : Type} [DecidableEq μ] [Journal σ]

def access (f : Fleet μ κ σ ν) : MacAccess μ σ := Mac.access f.shelf f.labels

/-- The tables after an edit at a MAC layer. -/
def edited (tables : μ → SlotTable) (p : μ × LinkEdit) : μ → SlotTable :=
  Function.update tables p.1 (p.2.on (tables p.1))

def editedAll (tables : μ → SlotTable) (plan : List (μ × LinkEdit)) : μ → SlotTable :=
  plan.foldl edited tables

def undo (p : μ × LinkEdit) : μ × LinkEdit := (p.1, p.2.undo)

def accepted (p : μ × LinkEdit) : MacCall μ := ⟨p.1, p.2.request, none⟩

theorem edited_self (tables : μ → SlotTable) (p : μ × LinkEdit) :
    edited tables p p.1 = p.2.on (tables p.1) := Function.update_self ..

theorem edited_undo {tables : μ → SlotTable} {p : μ × LinkEdit} (h : p.2.Fits (tables p.1)) :
    edited (edited tables p) (undo p) = tables := by
  unfold edited undo
  rw [Function.update_idem, Function.update_self, LinkEdit.on_undo h, Function.update_eq_self]

variable (f : Fleet μ κ σ ν)

/-- The MAC layers have links as the tables show them, and the rest is as it was. -/
structure Holds (rest : ν) (tables : μ → SlotTable) (s : σ) : Prop where
  rest_eq : f.rest s = rest
  links : ∀ i ∈ f.ids, ∃ l : Links,
    f.shelf.get? i s = some ((f.mac i).withLinks l) ∧ l.Distinct ∧ l.channel? = tables i

/-- An edit of a MAC layer's table, of a link within the slotframe. -/
structure Suits (tables : μ → SlotTable) (p : μ × LinkEdit) : Prop where
  mem : p.1 ∈ f.ids
  fits : p.2.Fits (tables p.1)
  covers : (f.mac p.1).Covers p.2.slot p.2.channel

/-- Every MAC layer has room for its table. -/
def Roomy (tables : μ → SlotTable) : Prop := ∀ i ∈ f.ids, (f.mac i).HasRoom (tables i)

variable {f} {rest : ν} {tables : μ → SlotTable} {p : μ × LinkEdit} {s : σ}

theorem Suits.undo (h : f.Suits tables p) : f.Suits (edited tables p) (undo p) where
  mem := h.mem
  fits := by
    show p.2.undo.Fits (edited tables p p.1)
    rw [edited_self]
    exact LinkEdit.fits_undo h.fits
  covers := by
    show (f.mac p.1).Covers p.2.undo.slot p.2.undo.channel
    rw [LinkEdit.slot_undo, LinkEdit.channel_undo]
    exact h.covers

theorem Roomy.edited (h : f.Roomy tables) (hp : (f.mac p.1).HasRoom (p.2.on (tables p.1))) :
    f.Roomy (edited tables p) := by
  intro i hi
  by_cases he : i = p.1
  · subst he
    rwa [edited_self]
  · rw [Fleet.edited, Function.update_of_ne he]
    exact h i hi

omit [DecidableEq μ] in
theorem Holds.enter (h : f.Holds rest tables s) (n : Note) :
    f.Holds rest tables (Journal.enter n s) where
  rest_eq := (f.lawful.rest_enter n s).trans h.rest_eq
  links i hi := by
    rw [f.lawful.get?_enter]
    exact h.links i hi

theorem Holds.put (h : f.Holds rest tables s) {i : μ} (hi : i ∈ f.ids) {l : Links}
    (hl : l.Distinct) :
    f.Holds rest (Function.update tables i l.channel?)
      (f.shelf.put i ((f.mac i).withLinks l) s) where
  rest_eq := (f.lawful.rest_put i _ s).trans h.rest_eq
  links j hj := by
    by_cases he : j = i
    · subst he
      obtain ⟨old, hold, -⟩ := h.links j hj
      refine ⟨l, f.lawful.get?_put_self hold _, hl, ?_⟩
      rw [Function.update_self]
    · rw [f.lawful.get?_put_of_ne he, Function.update_of_ne he]
      exact h.links j hj

/-! ### One edit -/

/-- An edit that is admitted is made or, if there is no room, refused. -/
theorem settles_edit_of_admits (h : f.Holds rest tables s) (hp : p.1 ∈ f.ids)
    (hroom : (f.mac p.1).HasRoom (tables p.1)) (hadmits : (f.mac p.1).Admits p.2) :
    Settles (edit f.access p.1 p.2) s fun outcome t =>
      (outcome = .ok () ∧ (f.mac p.1).HasRoom (p.2.on (tables p.1)) ∧
          f.Holds rest (edited tables p) t) ∨
        (outcome = .error (f.mac p.1).full ∧ ¬(f.mac p.1).HasRoom (p.2.on (tables p.1)) ∧ t = s) := by
  obtain ⟨i, e⟩ := p
  obtain ⟨l, hl, hd, ht⟩ := h.links i hp
  replace hroom : (f.mac i).HasRoom l.channel? := ht ▸ hroom
  cases e with
  | delete slot channel =>
    -- a slot can be cleared whether or not it has a link
    have hnext : (f.mac i).HasRoom ((LinkEdit.delete slot channel).on (tables i)) :=
      ht ▸ hroom.clear slot
    have hput := h.put hp (Links.distinct_erase hd slot)
    rw [show (l.erase slot).channel? = _ from LinkEdit.channel?_apply l (.delete slot channel),
      ht] at hput
    obtain ⟨remark, hdel⟩ := Mac.deleteLink_eq_ok (m := (f.mac i).withLinks l) hadmits
    refine settles_of_ends ?_
    simp only [edit, access, Mac.access, ends_bind, Shelf.ends_read, Shelf.ends_update]
    refine ⟨_, hl, _, _, _, hl, hdel, ?_⟩
    cases remark with
    | none => exact .inl ⟨trivial, hnext, hput⟩
    | some r =>
      simp only [ends_note]
      exact ⟨f.lawful.obstacle?_eq_none _ _, .inl ⟨trivial, hnext, hput.enter _⟩⟩
  | add slot channel =>
    have hput := h.put hp (Links.distinct_insert hd slot channel)
    rw [show (l.insert slot channel).channel? = _ from
      LinkEdit.channel?_apply l (.add slot channel), ht] at hput
    refine (f.shelf.settles_update hl).2 ?_
    cases hold : l.channel? slot with
    | some old =>
      rw [Mac.addLink_of_contains (m := (f.mac i).withLinks l) hadmits
        (show l.contains slot = true by rw [Links.contains, hold]; rfl)]
      exact .inl ⟨rfl, ht ▸ hroom.replace hold channel, hput⟩
    | none =>
      obtain ⟨full, hfull⟩ := Mac.isFull_eq_ok (f.sized i hp) l.size
      cases full with
      | false =>
        rw [Mac.addLink_of_not_full (m := (f.mac i).withLinks l) hadmits hold hfull]
        exact .inl ⟨rfl, ht ▸ hroom.add hd hold channel hfull, hput⟩
      | true =>
        rw [Mac.addLink_of_full (m := (f.mac i).withLinks l) hadmits hold hfull]
        refine .inr ⟨rfl, fun hnext => ?_, rfl⟩
        rw [← ht] at hnext
        rw [hnext.isFull_size hd hold] at hfull
        cases hfull

omit [DecidableEq μ] in
/-- An edit that is not admitted changes nothing. -/
theorem settles_edit_of_admission (h : f.Holds rest tables s) (hp : p.1 ∈ f.ids) {why : Fault}
    (hwhy : (f.mac p.1).admission p.2 = .error why) :
    Settles (edit f.access p.1 p.2) s fun outcome t => outcome = .error why ∧ t = s := by
  obtain ⟨i, e⟩ := p
  obtain ⟨l, hl, -, -⟩ := h.links i hp
  have hwhy : ((f.mac i).withLinks l).admission e = .error why := hwhy
  cases e with
  | delete slot channel =>
    simp only [edit, access, Mac.access, settles_bind, f.shelf.settles_read hl,
      f.shelf.settles_update hl, Mac.deleteLink_eq_error hwhy, and_self]
  | add slot channel =>
    refine (f.shelf.settles_update hl).2 ?_
    rw [Mac.addLink_eq_error hwhy]
    exact ⟨rfl, rfl⟩

theorem ends_edit (h : f.Holds rest tables s) (hp : f.Suits tables p)
    (hroom : (f.mac p.1).HasRoom (tables p.1))
    (hnext : (f.mac p.1).HasRoom (p.2.on (tables p.1))) :
    Ends (edit f.access p.1 p.2) s fun _ t => f.Holds rest (edited tables p) t := by
  refine ends_of_settles ((settles_edit_of_admits h hp.mem hroom hp.covers.admits).mono ?_)
  rintro _ t (⟨rfl, -, ht⟩ | ⟨-, hno, -⟩)
  · exact ⟨(), rfl, ht⟩
  · exact absurd hnext hno

/-- An edit that there is no room for is refused and changes nothing; any other is made. -/
theorem ends_refusal?_edit (h : f.Holds rest tables s) (hp : f.Suits tables p)
    (hroom : (f.mac p.1).HasRoom (tables p.1)) :
    Ends (refusal? (edit f.access p.1 p.2)) s fun r t =>
      (r = none ∧ (f.mac p.1).HasRoom (p.2.on (tables p.1)) ∧ f.Holds rest (edited tables p) t) ∨
      (r = some (f.mac p.1).full ∧ (∃ slot channel, p.2 = .add slot channel) ∧
        ¬(f.mac p.1).HasRoom (p.2.on (tables p.1)) ∧ t = s) := by
  have hadd : ¬(f.mac p.1).HasRoom (p.2.on (tables p.1)) → ∃ slot channel, p.2 = .add slot channel := by
    intro hno
    cases he : p.2 with
    | delete slot channel =>
      rw [he] at hno
      exact absurd (hroom.clear slot) hno
    | add slot channel => exact ⟨slot, channel, rfl⟩
  refine ends_of_settles (settles_refusal?.2 ?_)
  refine (settles_edit_of_admits h hp.mem hroom hp.covers.admits).mono ?_
  rintro _ t (⟨rfl, hnext, ht⟩ | ⟨rfl, hno, rfl⟩)
  · exact ⟨none, rfl, .inl ⟨rfl, hnext, ht⟩⟩
  · exact ⟨_, rfl, .inr ⟨rfl, hadd hno, hno, rfl⟩⟩

end Fleet
end TschLearning
