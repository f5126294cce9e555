import Cochange.NodeKind
import Std.Data.ExtTreeSet

/-!
# Source nodes

The source model of a file: a tree of types, variables and functions. Files hold entities, types
hold members, variables and functions hold no nodes. Supertypes and modifiers are sets of names;
their order and repetitions in a text do not matter.
-/

namespace Cochange

/-- A finite set of names. -/
abbrev NameSet :=
  Std.ExtTreeSet String

/-- A node of the source model and all below it. -/
inductive SourceNode where
  | file (path : String) (entities : List SourceNode)
  | type (name : String) (supertypes modifiers : NameSet) (members : List SourceNode)
  | var (name : String) (modifiers : NameSet) (initializer : List String)
  | function (signature : String) (parameters : List String) (modifiers : NameSet)
      (body : List String)

namespace SourceNode

/-- The kind of a node. -/
def kind : SourceNode → NodeKind
  | file .. => .file
  | type .. => .type
  | var .. => .var
  | function .. => .function

/-- What a node is called in its container: path, name or signature. -/
def simpleId : SourceNode → String
  | file path _ => path
  | type name .. => name
  | var name .. => name
  | function signature .. => signature

/-- The nodes directly below a node. -/
def children : SourceNode → List SourceNode
  | file _ entities => entities
  | type _ _ _ members => members
  | var .. | function .. => []

/-- A type without supertypes and modifiers. -/
def ofMembers (name : String) (members : List SourceNode) : SourceNode :=
  type name ∅ ∅ members

/-- A variable with nothing but its name. -/
def ofName (name : String) : SourceNode :=
  var name ∅ []

/-- A function with nothing but its signature. -/
def ofSignature (signature : String) : SourceNode :=
  function signature [] ∅ []

end SourceNode

end Cochange
