/-!
# TOML values and tables

A TOML text is a table that is put together from headers and fields, in the order of the text.
Tables missing on the way to a header or to a dotted key are added. A table is filled in one
place: who may come back to it depends on how it came to be.
-/

namespace Cochange

/-- How a table came to be. -/
inductive Toml.Origin where
  /-- By its own header. -/
  | header
  /-- On the way to the table of a longer header. -/
  | passage
  /-- On the way to the last part of a dotted key. -/
  | dotted
  deriving DecidableEq, Repr

/-- A TOML value. -/
inductive Toml where
  | text (s : String)
  | integer (n : Int)
  | float (x : Float)
  | bool (b : Bool)
  /-- A date, a time or both. -/
  | date
  | array (items : List Toml)
  /-- A table written as a value; nothing is added to it later. -/
  | inlineTable (fields : List (String × Toml))
  | table (origin : Toml.Origin) (fields : List (String × Toml))
  /-- Tables of one name, each with a header of its own; only the last can be added to. -/
  | tables (earlier : List (List (String × Toml))) (last : List (String × Toml))

namespace Toml

/-- The fields of a table, in the order of the text. -/
abbrev Fields :=
  List (String × Toml)

/-- A dotted key: the tables to go through and the name in the last of them. -/
structure Key where
  path : List String
  name : String
  deriving DecidableEq, Repr

/-- What the lines of a TOML text say. -/
inductive Entry where
  /-- `[key]`: the fields that follow are of this table. -/
  | header (key : Key)
  /-- `[[key]]`: the fields that follow are of one more table with this name. -/
  | itemHeader (key : Key)
  /-- `key = value`. -/
  | field (key : Key) (value : Toml)

/-- The fields with the value of a key replaced. -/
def replace (fields : Fields) (key : String) (v : Toml) : Fields :=
  fields.map fun f => if f.1 = key then (key, v) else f

/-- Changes the table at the end of a path that starts in a table of the given origin; missing
tables are added. Dotted keys do not go through tables that have a header. The change is told the
origin of the table. -/
def alterTable (added : Origin) (change : Origin → Fields → Option Fields) :
    List String → Origin → Fields → Option Fields
  | [], origin, fields => change origin fields
  | key :: path, _, fields =>
    match fields.lookup key with
    | none => (alterTable added change path added []).map fun sub =>
        fields ++ [(key, table added sub)]
    | some (table origin sub) =>
      if added = .dotted ∧ origin = .header then none
      else (alterTable added change path origin sub).map fun sub =>
        replace fields key (table origin sub)
    | some (tables earlier last) =>
      (alterTable added change path .header last).map fun last =>
        replace fields key (tables earlier last)
    | some _ => none

/-- One more field. Its name must be new, and a dotted key ends in a table that dotted keys have
made. -/
def addField (fields : Fields) (key : Key) (v : Toml) : Option Fields :=
  alterTable .dotted
    (fun origin fields =>
      if (origin = .dotted) = (key.path ≠ []) ∧ fields.lookup key.name = none then
        some (fields ++ [(key.name, v)])
      else none)
    key.path .header fields

/-- The table of a header. It must be new or have only been passed through. -/
def openTable (fields : Fields) (key : Key) : Option Fields :=
  alterTable .passage
    (fun _ fields =>
      match fields.lookup key.name with
      | none => some (fields ++ [(key.name, table .header [])])
      | some (table .passage sub) => some (replace fields key.name (table .header sub))
      | some _ => none)
    key.path .header fields

/-- One more table among those of one name. -/
def openItem (fields : Fields) (key : Key) : Option Fields :=
  alterTable .passage
    (fun _ fields =>
      match fields.lookup key.name with
      | none => some (fields ++ [(key.name, tables [] [])])
      | some (tables earlier last) =>
        some (replace fields key.name (tables (earlier ++ [last]) []))
      | some _ => none)
    key.path .header fields

/-- Adds entries, given the path of the table that fields belong to. -/
def addEntries (path : List String) (fields : Fields) : List Entry → Option Fields
  | [] => some fields
  | .header key :: rest => do
    addEntries (key.path ++ [key.name]) (← openTable fields key) rest
  | .itemHeader key :: rest => do
    addEntries (key.path ++ [key.name]) (← openItem fields key) rest
  | .field key v :: rest => do
    let fields ← alterTable .passage (fun _ sub => addField sub key v) path .header fields
    addEntries path fields rest

/-- The table that entries describe. -/
def ofEntries (entries : List Entry) : Option Fields :=
  addEntries [] [] entries

end Toml

end Cochange
