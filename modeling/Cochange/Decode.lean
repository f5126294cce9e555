import Cochange.Json.Basic
import Cochange.QualifiedId.Parse

/-!
# Records from JSON values

How records are taken from JSON values. The fields of a record may stand in any order; they are
gone through in the order of the text, and the first one that is wrong decides the error. Only
then are missing fields reported, in the order of the record's declaration. Fields that the
record does not have are passed over. A record may also be given as an array of its fields.

A tagged record names its variant in one of its fields. All of it is taken in before the fields
of the variant are looked at, so that everything in it must be readable, even what is passed over
later.
-/

namespace Cochange

open Json (Literal)

/-- What is wrong with a value that should be a record. -/
inductive DecodeError where
  /-- A text that should be a qualified id is none. -/
  | badId (why : IdError)
  | missingField (name : String)
  | duplicateField (name : String)
  /-- A tag names no variant. -/
  | unknownVariant (given : String) (expected : List String)
  /-- The text is no JSON, is nested too deeply, or has a value of another type. -/
  | malformed
  deriving DecidableEq

namespace DecodeError

/-- A name between backquotes. -/
def ticked (name : String) : String :=
  "`" ++ name ++ "`"

/-- The text of the error. Values that are simply not of the right form have none. -/
def message? : DecodeError → Option String
  | badId why => some why.message
  | missingField name => some ("missing field " ++ ticked name)
  | duplicateField name => some ("duplicate field " ++ ticked name)
  | unknownVariant given expected =>
    some ("unknown variant " ++ ticked given ++ ", expected one of " ++
      ", ".intercalate (expected.map ticked))
  | malformed => none

end DecodeError

namespace Decode

/-- What is taken from a value. -/
abbrev Result (α : Type) :=
  Except DecodeError α

/-- A text. -/
def text : Json → Result String
  | .string (.text s) => .ok s
  | _ => .error .malformed

/-- A list, its items taken in order. -/
def list {α : Type} (item : Json → Result α) : Json → Result (List α)
  | .array items => items.mapM item
  | _ => .error .malformed

/-- A qualified id. -/
def id (v : Json) : Result QualifiedId :=
  match text v with
  | .error e => .error e
  | .ok s =>
    match QualifiedId.parse s with
    | .ok x => .ok x
    | .error why => .error (.badId why)

/-- A natural number of at most `limit`. -/
def nat (limit : Nat) : Json → Result Nat
  | .number n =>
    match n.toNat? limit with
    | some n => .ok n
    | none => .error .malformed
  | _ => .error .malformed

/-- A double. -/
def float : Json → Result Float
  | .number n =>
    match n.toFloat? with
    | some x => .ok x
    | none => .error .malformed
  | _ => .error .malformed

/-- How a record is taken from its fields, one at a time. -/
structure Shape (σ : Type) where
  /-- The names of all fields, in the order of declaration. -/
  fields : List String
  /-- The names of the fields that must be given. -/
  required : List String
  /-- The record before any field is given. -/
  start : σ
  /-- The record with one more field given. -/
  set : σ → String → Json → Result σ

/-- Goes through fields in order, with the names given so far. Gives the names of all fields that
were given and the record. -/
def throughFields {σ : Type} (shape : Shape σ) :
    List String → σ → List (Literal × Json) → Result (List String × σ)
  | given, s, [] => .ok (given, s)
  | _, _, (.unpaired, _) :: _ => .error .malformed
  | given, s, (.text name, v) :: rest =>
    if name ∈ shape.fields then
      if name ∈ given then .error (.duplicateField name)
      else
        match shape.set s name v with
        | .error e => .error e
        | .ok s => throughFields shape (name :: given) s rest
    else if v.isComplete then throughFields shape given s rest
    else .error .malformed

/-- A record from an object or from an array of its fields. -/
def record {σ : Type} (shape : Shape σ) : Json → Result σ
  | .object fields =>
    match throughFields shape [] shape.start fields with
    | .error e => .error e
    | .ok (given, s) =>
      match shape.required.find? (· ∉ given) with
      | some name => .error (.missingField name)
      | none => .ok s
  | .array items =>
    match throughFields shape [] shape.start ((shape.fields.map Literal.text).zip items) with
    | .error e => .error e
    | .ok (given, s) =>
      if shape.required.all (· ∈ given) && items.length ≤ shape.fields.length then .ok s
      else .error .malformed
  | _ => .error .malformed

/-! ## Tagged records -/

/-- The variants of a tagged record and how they are told apart. -/
structure Tagging (α : Type) where
  /-- The name of the field that holds the tag. -/
  tag : String
  variants : List (String × α)
  /-- Whether a variant may be given by its position. -/
  numbered : Bool
  /-- How many levels of arrays and objects the values of the fields may have. -/
  depth : Nat

namespace Tagging

/-- The variant that a tag names. -/
def variant {α : Type} (t : Tagging α) : Json → Result α
  | .string (.text s) =>
    match t.variants.lookup s with
    | some a => .ok a
    | none => .error (.unknownVariant s (t.variants.map (·.1)))
  | .number n =>
    match n.toNat? Json.Numeral.maxWord with
    | some i =>
      match t.numbered, t.variants[i]? with
      | true, some (_, a) => .ok a
      | _, _ => .error .malformed
    | none => .error .malformed
  | _ => .error .malformed

/-- Takes the tag out of the fields. -/
def splitFields {α : Type} (t : Tagging α) :
    Option α → List (Literal × Json) → Result (α × List (Literal × Json))
  | none, [] => .error (.missingField t.tag)
  | some a, [] => .ok (a, [])
  | _, (.unpaired, _) :: _ => .error .malformed
  | found, (.text name, v) :: rest =>
    if name = t.tag then
      match found with
      | some _ => .error (.duplicateField t.tag)
      | none =>
        match t.variant v with
        | .error e => .error e
        | .ok a => t.splitFields (some a) rest
    else if v.isReadable t.depth then
      match t.splitFields found rest with
      | .error e => .error e
      | .ok (a, fields) => .ok (a, (.text name, v) :: fields)
    else .error .malformed

/-- The variant of a tagged record, and the record without its tag. -/
def split {α : Type} (t : Tagging α) : Json → Result (α × Json)
  | .object fields =>
    match t.splitFields none fields with
    | .error e => .error e
    | .ok (a, rest) => .ok (a, .object rest)
  | .array [] => .error (.missingField t.tag)
  | .array (v :: items) =>
    match t.variant v with
    | .error e => .error e
    | .ok a =>
      if items.all (·.isReadable t.depth) then .ok (a, .array items) else .error .malformed
  | _ => .error .malformed

end Tagging

end Decode

end Cochange
