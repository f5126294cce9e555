import Cochange.Instant.Rfc3339
import Cochange.Json.Parser
import Cochange.Json.Printer
import Cochange.Revision.Basic
import Cochange.SourceNode.Json

/-!
# Revisions as JSON

A revision is an object with its id, date, author and edits; an edit is an object with its type
under `type`. A document nests at most `maxDepth` levels, but in values that are passed over.
-/

namespace Cochange

open Decode (Shape Result)

/-- How many levels of arrays and objects a document may have. -/
def Json.maxDepth : Nat := 127

namespace Edit

/-- The types of edits. -/
inductive Kind where
  | add
  | remove
  | edit
  deriving DecidableEq

/-- How the types of edits are told apart. -/
def tagging (depth : Nat) : Decode.Tagging Kind where
  tag := "type"
  variants := [("addNode", .add), ("removeNode", .remove), ("editEntity", .edit)]
  numbered := false
  depth

/-- The fields of an edit that only names a node. -/
def idShape : Shape (Option QualifiedId) where
  fields := ["id"]
  required := ["id"]
  start := none
  set := fun _ _ v => (Decode.id v).map some

/-- The fields of an edit that adds a node. -/
def nodeShape (depth : Nat) : Shape (Option QualifiedId × Option SourceNode) where
  fields := ["id", "node"]
  required := ["id", "node"]
  start := (none, none)
  set := fun s name v =>
    match name with
    | "id" => (Decode.id v).map fun x => (some x, s.2)
    | _ => (SourceNode.decode depth true v).map fun n => (s.1, some n)

/-- The edit an object stands for, the object and all in it having at most `depth + 1` levels. -/
def decode (depth : Nat) (v : Json) : Result Edit :=
  match (tagging depth).split v with
  | .error e => .error e
  | .ok (.add, rest) =>
    match Decode.record (nodeShape depth) rest with
    | .ok (some id, some node) => .ok (addNode id node)
    | .ok _ => .error .malformed
    | .error e => .error e
  | .ok (.remove, rest) =>
    match Decode.record idShape rest with
    | .ok (some id) => .ok (removeNode id)
    | .ok none => .error .malformed
    | .error e => .error e
  | .ok (.edit, rest) =>
    match Decode.record idShape rest with
    | .ok (some id) => .ok (editEntity id)
    | .ok none => .error .malformed
    | .error e => .error e

/-- The object that stands for an edit. -/
def toJson : Edit → Json
  | addNode id node =>
    .ofFields [("type", .ofString "addNode"), ("id", .ofString id.text), ("node", node.toJson)]
  | removeNode id =>
    .ofFields [("type", .ofString "removeNode"), ("id", .ofString id.text)]
  | editEntity id =>
    .ofFields [("type", .ofString "editEntity"), ("id", .ofString id.text)]

end Edit

namespace Revision

/-- A point in time. -/
def instant (v : Json) : Result Instant :=
  match Decode.text v with
  | .error e => .error e
  | .ok s =>
    match Instant.parse? s with
    | some t => .ok t
    | none => .error .malformed

/-- A revision under construction. -/
structure Fields where
  id : String := ""
  date : Option Instant := none
  author : String := ""
  edits : List Edit := []

/-- The fields of a revision. The edits stand two levels down, their own fields three. -/
def shape : Shape Fields where
  fields := ["id", "date", "author", "edits"]
  required := ["id", "date", "author"]
  start := {}
  set := fun s name v =>
    match name with
    | "id" => (Decode.text v).map fun t => { s with id := t }
    | "date" => (instant v).map fun t => { s with date := some t }
    | "author" => (Decode.text v).map fun t => { s with author := t }
    | _ => (Decode.list (Edit.decode (Json.maxDepth - 3)) v).map fun t => { s with edits := t }

/-- The revision an object stands for. -/
def decode (v : Json) : Result Revision :=
  match Decode.record shape v with
  | .ok { id, date := some date, author, edits } => .ok { id, date, author, edits }
  | .ok _ => .error .malformed
  | .error e => .error e

/-- The object that stands for a revision. -/
def toJson (r : Revision) : Json :=
  .ofFields [("id", .ofString r.id), ("date", .ofString r.date.text),
    ("author", .ofString r.author), ("edits", .array (r.edits.map (·.toJson)))]

end Revision

end Cochange
