import Cochange.Interner

/-!
# Ids and their handles

An interner starts empty and grows by `intern` only. So its list of ids and its index undo each
other, which is all that the counting needs to know about handles:

* `Valid`: an id has a handle exactly when that handle stands for the id.
* `Valid.intern`: interning keeps this.
* `Valid.get?_injective`: no two ids share a handle.
-/

namespace Cochange.Interner

/-- Ids and handles belong to each other one to one. -/
def Valid (t : Interner) : Prop :=
  ∀ (id : QualifiedId) (h : Handle), t.get? id = some h ↔ t.resolve? h = some id

theorem valid_empty : empty.Valid := by
  intro id h
  simp [empty, get?, resolve?]

/-- The number to be given next stands for no id yet. -/
theorem resolve?_size (t : Interner) : t.resolve? t.size = none :=
  Array.getElem?_eq_none (Nat.le_refl _)

/-- What was met keeps its number, and a new id gets the one after the last. -/
theorem resolve?_intern {t : Interner} (ht : t.Valid) (id : QualifiedId) (h : Handle) :
    (t.intern id).2.resolve? h = if h = (t.intern id).1 then some id else t.resolve? h := by
  cases hg : t.get? id with
  | some k =>
    rw [intern_of_get? hg]
    split
    next he => exact he ▸ (ht id k).mp hg
    next => rfl
  | none =>
    rw [intern_of_get?_eq_none hg]
    show (t.ids.push id)[h]? = if h = t.ids.size then some id else t.ids[h]?
    exact Array.getElem?_push

/-- Interning an id changes no answer that is read off under handles, as long as nothing is kept
under the number to be given next. -/
theorem bind_get?_intern {β : Type} {t : Interner} (id x : QualifiedId) (f : Handle → Option β)
    (hf : f t.size = none) : ((t.intern id).2.get? x).bind f = (t.get? x).bind f := by
  rw [get?_intern]
  split
  next he =>
    rw [he]
    cases hid : t.get? id with
    | some h => rw [intern_of_get? hid]
    | none =>
      rw [intern_of_get?_eq_none hid]
      exact hf
  next => rfl

namespace Valid

variable {t : Interner}

/-- No two ids share a handle. -/
theorem get?_injective (ht : t.Valid) {a b : QualifiedId} {h : Handle}
    (ha : t.get? a = some h) (hb : t.get? b = some h) : a = b := by
  have hr := (ht a h).mp ha
  rw [(ht b h).mp hb] at hr
  exact (Option.some.inj hr).symm

/-- The handle of an id that was not met before is the handle of no other id. -/
theorem eq_of_get?_eq_intern (ht : t.Valid) {a b : QualifiedId}
    (hb : t.get? b = some (t.intern a).1) : b = a := by
  cases ha : t.get? a with
  | some h =>
    rw [intern_of_get? ha] at hb
    exact ht.get?_injective hb ha
  | none =>
    rw [intern_of_get?_eq_none ha] at hb
    have hr := (ht b t.size).mp hb
    rw [resolve?_size] at hr
    cases hr

/-- Interning keeps both directions of the numbering in step. -/
theorem intern (ht : t.Valid) (id : QualifiedId) : (t.intern id).2.Valid := by
  intro other h
  rw [get?_intern, resolve?_intern ht]
  by_cases ho : other = id
  · rw [if_pos ho]
    by_cases hh : h = (t.intern id).1
    · rw [if_pos hh, ho, hh]
      simp
    · rw [if_neg hh]
      refine ⟨fun he => absurd (Option.some.inj he).symm hh, fun hr => ?_⟩
      -- an id with a handle of its own keeps it, so `h` would be the one just given
      have hg := (ht other h).mpr hr
      rw [ho] at hg
      rw [intern_of_get? hg] at hh
      exact absurd rfl hh
  · rw [if_neg ho]
    by_cases hh : h = (t.intern id).1
    · rw [if_pos hh]
      refine ⟨fun hg => absurd (ht.eq_of_get?_eq_intern (hh ▸ hg)) ho, fun hr => ?_⟩
      exact absurd (Option.some.inj hr).symm ho
    · rw [if_neg hh]
      exact ht other h

end Valid

end Cochange.Interner
