import Cochange.NodeKind
import Cochange.Text.Characters
import Cochange.Text.Split

/-!
# Qualified ids

A qualified id names a node of the source model by the way to it: the path of a source file,
the names of the types around the node from the outside in, and at most one member at the end,
a variable or a function. It is written with `:` before each type and `#` before the member:
`src/Main.java:Main#run()`.

Paths and type names hold neither separator. A member holds no `#` but may hold `:`, as
signatures do. No part is blank. These rules are fields of the type, so every operation below
gives a well-formed id by construction.

Ids are ordered as their texts are, character by character.
-/

namespace Cochange

open Text (isBlank)

/-- What a path or a type name may be: visible text without a separator. -/
def IsToken (cs : List Char) : Prop :=
  isBlank cs = false ∧ ':' ∉ cs ∧ '#' ∉ cs

instance (cs : List Char) : Decidable (IsToken cs) := by
  unfold IsToken; infer_instance

/-- What a member may be: visible text without a `#`. -/
def IsMember (cs : List Char) : Prop :=
  isBlank cs = false ∧ '#' ∉ cs

instance (cs : List Char) : Decidable (IsMember cs) := by
  unfold IsMember; infer_instance

/-- A path or a type name. -/
structure Token where
  text : String
  ok : IsToken text.toList
  deriving DecidableEq

/-- A variable name or a function signature. -/
structure Member where
  text : String
  ok : IsMember text.toList
  deriving DecidableEq

namespace Token

/-- The text as a token, if it can be one. -/
def ofString? (s : String) : Option Token :=
  if h : IsToken s.toList then some ⟨s, h⟩ else none

/-- The token of a text, if it has one, is the one with this text. -/
theorem ofString?_eq_some {s : String} {t : Token} : ofString? s = some t ↔ t.text = s := by
  unfold ofString?
  constructor
  · intro h
    split at h
    · cases h; rfl
    · cases h
  · rintro rfl
    rw [dif_pos t.ok]

end Token

namespace Member

/-- The text as a member, if it can be one. -/
def ofString? (s : String) : Option Member :=
  if h : IsMember s.toList then some ⟨s, h⟩ else none

/-- The member of a text, if it has one, is the one with this text. -/
theorem ofString?_eq_some {s : String} {m : Member} : ofString? s = some m ↔ m.text = s := by
  unfold ofString?
  constructor
  · intro h
    split at h
    · cases h; rfl
    · cases h
  · rintro rfl
    rw [dif_pos m.ok]

/-- A member with a parameter list is a function. -/
def kind (m : Member) : NodeKind :=
  if '(' ∈ m.text.toList then .function else .var

end Member

/-- The text of an id with these parts. -/
def QualifiedId.spell (path : Token) (types : List Token) (member : Option Member) : List Char :=
  path.text.toList ++ types.flatMap (fun t => ':' :: t.text.toList) ++
    match member with
    | none => []
    | some m => '#' :: m.text.toList

/-- The name of a node of the source model. The text is kept beside the parts it is made of. -/
structure QualifiedId where
  path : Token
  types : List Token
  member : Option Member
  text : String := String.ofList (QualifiedId.spell path types member)
  text_eq : text = String.ofList (QualifiedId.spell path types member) := by rfl
  deriving DecidableEq

namespace QualifiedId

/-- The text of an id spells its parts. -/
theorem toList_text (x : QualifiedId) : x.text.toList = spell x.path x.types x.member := by
  rw [x.text_eq, String.toList_ofList]

/-- Two ids with the same parts are the same. -/
theorem ext_parts {x y : QualifiedId} (hp : x.path = y.path) (ht : x.types = y.types)
    (hm : x.member = y.member) : x = y := by
  obtain ⟨p, ts, m, s, hs⟩ := x
  obtain ⟨p', ts', m', s', hs'⟩ := y
  cases hp; cases ht; cases hm; cases hs; cases hs'
  rfl

/-- The id of a source file. -/
def ofPath (path : Token) : QualifiedId :=
  { path, types := [], member := none }

/-- The path of the source file that holds the node. -/
def sourcePath (x : QualifiedId) : String :=
  x.path.text

/-- The kind of the node, as the parts of its id tell it. -/
def kind (x : QualifiedId) : NodeKind :=
  match x.member, x.types with
  | some m, _ => m.kind
  | none, _ :: _ => .type
  | none, [] => .file

/-- The last part: member, innermost type or path. -/
def simpleId (x : QualifiedId) : String :=
  match x.member with
  | some m => m.text
  | none => (x.types.getLast?.getD x.path).text

/-- The id of the node around this one; a file has none. -/
def parent? (x : QualifiedId) : Option QualifiedId :=
  match x.member, x.types with
  | some _, _ => some { path := x.path, types := x.types, member := none }
  | none, [] => none
  | none, t :: ts => some { path := x.path, types := (t :: ts).dropLast, member := none }

/-- How many parts stand behind the path. -/
def depth (x : QualifiedId) : Nat :=
  x.types.length + if x.member.isSome then 1 else 0

/-- A parent is nested less deep. -/
theorem depth_of_parent? {x p : QualifiedId} (h : x.parent? = some p) : p.depth < x.depth := by
  unfold parent? at h
  split at h <;> cases h <;> simp_all [depth]

/-- The ids of the nodes around this one, from the innermost out to the file. -/
def ancestors (x : QualifiedId) : List QualifiedId :=
  match h : x.parent? with
  | none => []
  | some p =>
    have : p.depth < x.depth := depth_of_parent? h
    p :: p.ancestors
termination_by x.depth

/-- Whether an id is `outer` or, by its text, continues it with a separator. -/
def isWithin (x outer : QualifiedId) : Bool :=
  match outer.text.toList.isPrefixOf? x.text.toList with
  | none => false
  | some [] => true
  | some (c :: _) => c = ':' || c = '#'

/-- Ids stand in the order of their texts. -/
instance : Ord QualifiedId where
  compare x y := compare x.text y.text

/-- Ids are compared by their texts. -/
theorem compare_def (x y : QualifiedId) : compare x y = compare x.text y.text := rfl

instance : Std.TransOrd QualifiedId :=
  inferInstanceAs (Std.TransCmp (compareOn QualifiedId.text))

end QualifiedId

end Cochange
