import Cochange.Text.Lowercase

/-!
# Kinds of source nodes

A node of the source model is a file, a type, a variable or a function. Everything but a file
is an entity: something whose changes are counted.
-/

namespace Cochange

/-- What a node of the source model is. -/
inductive NodeKind where
  | file
  | type
  | var
  | function
  deriving DecidableEq, Repr

namespace NodeKind

/-- Every kind but a file is an entity. -/
def isEntity (k : NodeKind) : Bool :=
  k ≠ file

/-- The word for a kind. -/
def name : NodeKind → String
  | file => "file"
  | type => "type"
  | var => "variable"
  | function => "function"

/-- All kinds, in the order in which messages list them. -/
def all : List NodeKind :=
  [file, type, var, function]

/-- A word that names no kind, in lower case. -/
structure UnknownName where
  lowered : String
  deriving DecidableEq, Repr

/-- The kind that a word names in any letter case. A field is a variable, a method a function. -/
def ofName (word : String) : Except UnknownName NodeKind :=
  match Text.lowercase word with
  | "file" => .ok file
  | "type" => .ok type
  | "variable" | "field" => .ok var
  | "function" | "method" => .ok function
  | other => .error ⟨other⟩

/-- The text of the error. -/
def UnknownName.message (e : UnknownName) : String :=
  "unknown source node kind: " ++ e.lowered

end NodeKind

end Cochange
