import Cochange.Json.Numeral

/-!
# JSON values

Objects keep their fields in the order of the text, repetitions included, and numbers keep their
digits. Two things may stand in a value that no complete document has:

* a string literal may name half of a surrogate pair, so that it denotes no text;
* `fault` stands where the text stops being JSON. Nothing follows it, so whoever goes through the
  value in order comes to it after all that precedes it in the text.
-/

namespace Cochange

namespace Json

/-- What a string literal denotes. -/
inductive Literal where
  | text (s : String)
  /-- An escape names half of a surrogate pair. -/
  | unpaired
  deriving DecidableEq, Repr

end Json

/-- A JSON value. -/
inductive Json where
  | null
  | bool (b : Bool)
  | number (n : Json.Numeral)
  | string (s : Json.Literal)
  | array (items : List Json)
  | object (fields : List (Json.Literal × Json))
  /-- The text stops being JSON here. -/
  | fault

namespace Json

instance : Inhabited Json := ⟨null⟩

/-- A string. -/
def ofString (s : String) : Json :=
  string (.text s)

/-- A natural number. -/
def ofNat (n : Nat) : Json :=
  number (.ofNat n)

/-- A whole number. -/
def ofInt (n : Int) : Json :=
  number (.ofInt n)

/-- A list of strings. -/
def ofStrings (ss : List String) : Json :=
  array (ss.map ofString)

/-- A double. What is no finite number is `null`, as JSON has no word for it. -/
def ofFloat (x : Float) : Json :=
  match Decimal.Double.ofFloat x with
  | .finite b => number (.ofBinary b)
  | _ => null

/-- An object with these fields. -/
def ofFields (fields : List (String × Json)) : Json :=
  object (fields.map fun f => (.text f.1, f.2))

/-! ## Whether the text behind a value is sound -/

mutual

/-- Whether the text of a value is JSON to its end. -/
def isComplete : Json → Bool
  | fault => false
  | array items => allComplete items
  | object fields => fieldsComplete fields
  | _ => true

/-- Whether the texts of all items are. -/
def allComplete : List Json → Bool
  | [] => true
  | v :: vs => v.isComplete && allComplete vs

/-- Whether the texts of all fields are. -/
def fieldsComplete : List (Literal × Json) → Bool
  | [] => true
  | f :: fs => f.2.isComplete && fieldsComplete fs

end

mutual

/-- Whether a value can be read and kept: it is complete, its strings are text, its numbers are
in the range of doubles, and it nests at most `depth` levels of arrays and objects. -/
def isReadable (depth : Nat) : Json → Bool
  | null | bool _ => true
  | number n => n.toFloat?.isSome
  | string s => s ≠ .unpaired
  | array items => 0 < depth && allReadable (depth - 1) items
  | object fields => 0 < depth && fieldsReadable (depth - 1) fields
  | fault => false

/-- Whether all items can be read and kept. -/
def allReadable (depth : Nat) : List Json → Bool
  | [] => true
  | v :: vs => v.isReadable depth && allReadable depth vs

/-- Whether all fields can be read and kept. -/
def fieldsReadable (depth : Nat) : List (Literal × Json) → Bool
  | [] => true
  | f :: fs => f.1 ≠ .unpaired && f.2.isReadable depth && fieldsReadable depth fs

end

end Json

end Cochange
