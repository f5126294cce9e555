import Cochange.Decode
import Cochange.SourceNode.Basic

/-!
# Source nodes as JSON

A node is an object with its kind under `kind` and the fields of that kind. Lists and sets may be
left out. When a node is written all of them are there, sets in order.
-/

namespace Cochange.SourceNode

open Json (Literal)
open Decode (Shape Result)

/-- A set of names. -/
def nameSet (v : Json) : Result NameSet :=
  (Decode.list Decode.text v).map fun names => Std.ExtTreeSet.ofList names

/-- The fields of a file: path and entities. -/
def fileShape (node : Json → Result SourceNode) : Shape (String × List SourceNode) where
  fields := ["path", "entities"]
  required := ["path"]
  start := ("", [])
  set := fun s name v =>
    match name with
    | "path" => (Decode.text v).map fun t => (t, s.2)
    | _ => (Decode.list node v).map fun ns => (s.1, ns)

/-- A type under construction. -/
structure TypeFields where
  name : String := ""
  supertypes : NameSet := ∅
  modifiers : NameSet := ∅
  members : List SourceNode := []

/-- The fields of a type. -/
def typeShape (node : Json → Result SourceNode) : Shape TypeFields where
  fields := ["name", "supertypes", "modifiers", "members"]
  required := ["name"]
  start := {}
  set := fun s name v =>
    match name with
    | "name" => (Decode.text v).map fun t => { s with name := t }
    | "supertypes" => (nameSet v).map fun t => { s with supertypes := t }
    | "modifiers" => (nameSet v).map fun t => { s with modifiers := t }
    | _ => (Decode.list node v).map fun t => { s with members := t }

/-- A variable under construction. -/
structure VarFields where
  name : String := ""
  modifiers : NameSet := ∅
  initializer : List String := []

/-- The fields of a variable. -/
def varShape : Shape VarFields where
  fields := ["name", "modifiers", "initializer"]
  required := ["name"]
  start := {}
  set := fun s name v =>
    match name with
    | "name" => (Decode.text v).map fun t => { s with name := t }
    | "modifiers" => (nameSet v).map fun t => { s with modifiers := t }
    | _ => (Decode.list Decode.text v).map fun t => { s with initializer := t }

/-- A function under construction. -/
structure FunctionFields where
  signature : String := ""
  parameters : List String := []
  modifiers : NameSet := ∅
  body : List String := []

/-- The fields of a function. -/
def functionShape : Shape FunctionFields where
  fields := ["signature", "parameters", "modifiers", "body"]
  required := ["signature"]
  start := {}
  set := fun s name v =>
    match name with
    | "signature" => (Decode.text v).map fun t => { s with signature := t }
    | "parameters" => (Decode.list Decode.text v).map fun t => { s with parameters := t }
    | "modifiers" => (nameSet v).map fun t => { s with modifiers := t }
    | _ => (Decode.list Decode.text v).map fun t => { s with body := t }

/-- How kinds are told apart. -/
def tagging (numbered : Bool) (depth : Nat) : Decode.Tagging NodeKind where
  tag := "kind"
  variants := NodeKind.all.map fun k => (k.name, k)
  numbered
  depth

/-- The node an object stands for. The object and all in it may have `depth` levels; nodes below
another one may give their kind by its position. -/
def decode : (depth : Nat) → (numbered : Bool) → Json → Result SourceNode
  | 0, _, _ => .error .malformed
  | depth + 1, numbered, v =>
    match (tagging numbered depth).split v with
    | .error e => .error e
    | .ok (.file, rest) =>
      (Decode.record (fileShape (decode depth true)) rest).map fun s => file s.1 s.2
    | .ok (.type, rest) =>
      (Decode.record (typeShape (decode depth true)) rest).map fun s =>
        type s.name s.supertypes s.modifiers s.members
    | .ok (.var, rest) =>
      (Decode.record varShape rest).map fun s => var s.name s.modifiers s.initializer
    | .ok (.function, rest) =>
      (Decode.record functionShape rest).map fun s =>
        function s.signature s.parameters s.modifiers s.body

/-- A set of names, in order. -/
def namesToJson (names : NameSet) : Json :=
  Json.ofStrings names.toList

mutual

/-- The object that stands for a node. -/
def toJson : SourceNode → Json
  | file path entities =>
    .ofFields [("kind", .ofString "file"), ("path", .ofString path),
      ("entities", .array (listToJson entities))]
  | type name supertypes modifiers members =>
    .ofFields [("kind", .ofString "type"), ("name", .ofString name),
      ("supertypes", namesToJson supertypes), ("modifiers", namesToJson modifiers),
      ("members", .array (listToJson members))]
  | var name modifiers initializer =>
    .ofFields [("kind", .ofString "variable"), ("name", .ofString name),
      ("modifiers", namesToJson modifiers), ("initializer", .ofStrings initializer)]
  | function signature parameters modifiers body =>
    .ofFields [("kind", .ofString "function"), ("signature", .ofString signature),
      ("parameters", .ofStrings parameters), ("modifiers", namesToJson modifiers),
      ("body", .ofStrings body)]

/-- The objects that stand for some nodes. -/
def listToJson : List SourceNode → List Json
  | [] => []
  | n :: ns => n.toJson :: listToJson ns

end

end Cochange.SourceNode
