import Cochange.QualifiedId.Parse
import Std.Data.ExtTreeMap

/-!
# Handles for ids

Ids are numbered in the order in which they are first met. A number is never given to another
id, so an entity that is removed and added again has its old one.
-/

namespace Cochange

/-- The number of an id. -/
abbrev Handle :=
  Nat

/-- The ids met so far and their numbers. -/
structure Interner where
  ids : Array QualifiedId := #[]
  index : Std.ExtTreeMap QualifiedId Handle := ∅

namespace Interner

/-- No id met so far. -/
def empty : Interner :=
  {}

/-- How many ids were met. -/
def size (t : Interner) : Nat :=
  t.ids.size

/-- Whether no id was met. -/
def isEmpty (t : Interner) : Bool :=
  t.ids.isEmpty

/-- The number of an id, if it was met. -/
def get? (t : Interner) (id : QualifiedId) : Option Handle :=
  t.index[id]?

/-- The number of an id, a new one if it was not met before. -/
def intern (t : Interner) (id : QualifiedId) : Handle × Interner :=
  match t.get? id with
  | some h => (h, t)
  | none => (t.size, { ids := t.ids.push id, index := t.index.insert id t.size })

/-- The id with a number. -/
def resolve? (t : Interner) (h : Handle) : Option QualifiedId :=
  t.ids[h]?

/-- An id that was met keeps its number, and nothing changes. -/
theorem intern_of_get? {t : Interner} {id : QualifiedId} {h : Handle} (ht : t.get? id = some h) :
    t.intern id = (h, t) := by
  simp [intern, ht]

/-- An id that was not met gets the next number. -/
theorem intern_of_get?_eq_none {t : Interner} {id : QualifiedId} (ht : t.get? id = none) :
    t.intern id = (t.size, { ids := t.ids.push id, index := t.index.insert id t.size }) := by
  simp [intern, ht]

/-- The id has its number afterwards, all others keep theirs. -/
theorem get?_intern (t : Interner) (id other : QualifiedId) :
    (t.intern id).2.get? other = if other = id then some (t.intern id).1 else t.get? other := by
  cases ht : t.get? id with
  | some h =>
    rw [intern_of_get? ht]
    split
    · next he => rw [he, ht]
    · rfl
  | none =>
    rw [intern_of_get?_eq_none ht]
    by_cases he : other = id
    · subst he; simp [get?]
    · simp [get?, Std.ExtTreeMap.getElem?_insert, he, Ne.symm he]

end Interner

end Cochange
