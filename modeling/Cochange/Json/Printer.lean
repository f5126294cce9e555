import Cochange.Json.Basic

/-!
# Writing JSON

The compact form has no white space. The indented form puts every item and field on a line of its
own, two spaces deeper than what holds it, with a space behind each colon; empty arrays and
objects stay on one line. In both, a string escapes quotes, backslashes and the control characters
below U+0020, and nothing else.
-/

namespace Cochange.Json

/-- A hexadecimal digit, in lower case. -/
def hexDigit (n : Nat) : Char :=
  if n < 10 then Char.ofNat ('0'.toNat + n) else Char.ofNat ('a'.toNat + (n - 10))

/-- A character inside a string literal. -/
def escape (c : Char) : List Char :=
  if c = '"' then ['\\', '"']
  else if c = '\\' then ['\\', '\\']
  else if c = '\x08' then ['\\', 'b']
  else if c = '\t' then ['\\', 't']
  else if c = '\n' then ['\\', 'n']
  else if c = '\x0c' then ['\\', 'f']
  else if c = '\r' then ['\\', 'r']
  else if c.toNat < 0x20 then
    ['\\', 'u', '0', '0', hexDigit (c.toNat / 16), hexDigit (c.toNat % 16)]
  else [c]

/-- A text between quotes. -/
def quote (cs : List Char) : List Char :=
  '"' :: cs.flatMap escape ++ ['"']

/-- A literal as it is written. One that denotes no text is written as the replacement
character. -/
def Literal.written : Literal → List Char
  | .text s => quote s.toList
  | .unpaired => quote ['\uFFFD']

/-- Texts with a comma between any two neighbours. -/
def commaSeparated : List (List Char) → List Char
  | [] => []
  | [t] => t
  | t :: u :: ts => t ++ ',' :: commaSeparated (u :: ts)

mutual

/-- The compact form. -/
def written : Json → List Char
  | null | fault => ['n', 'u', 'l', 'l']
  | bool true => ['t', 'r', 'u', 'e']
  | bool false => ['f', 'a', 'l', 's', 'e']
  | number n => n.text
  | string s => s.written
  | array items => '[' :: commaSeparated (itemsWritten items) ++ [']']
  | object fields => '{' :: commaSeparated (fieldsWritten fields) ++ ['}']

/-- The compact forms of the items. -/
def itemsWritten : List Json → List (List Char)
  | [] => []
  | v :: vs => v.written :: itemsWritten vs

/-- The compact forms of the fields. -/
def fieldsWritten : List (Literal × Json) → List (List Char)
  | [] => []
  | f :: fs => (f.1.written ++ ':' :: f.2.written) :: fieldsWritten fs

end

/-- The compact form. -/
def render (v : Json) : String :=
  String.ofList v.written

/-- A new line with an indentation. -/
def newLine (indent : Nat) : List Char :=
  '\n' :: List.replicate indent ' '

/-- Texts one to a line, commas behind all but the last. -/
def onLines (indent : Nat) : List (List Char) → List Char
  | [] => []
  | [t] => newLine indent ++ t
  | t :: u :: ts => newLine indent ++ t ++ ',' :: onLines indent (u :: ts)

mutual

/-- The indented form of a value that begins `indent` columns in. -/
def indented (indent : Nat) : Json → List Char
  | array [] => ['[', ']']
  | object [] => ['{', '}']
  | array (v :: vs) =>
    '[' :: onLines (indent + 2) (itemsIndented (indent + 2) (v :: vs)) ++ newLine indent ++ [']']
  | object (f :: fs) =>
    '{' :: onLines (indent + 2) (fieldsIndented (indent + 2) (f :: fs)) ++ newLine indent ++ ['}']
  | v => v.written

/-- The indented forms of the items. -/
def itemsIndented (indent : Nat) : List Json → List (List Char)
  | [] => []
  | v :: vs => v.indented indent :: itemsIndented indent vs

/-- The indented forms of the fields. -/
def fieldsIndented (indent : Nat) : List (Literal × Json) → List (List Char)
  | [] => []
  | f :: fs => (f.1.written ++ ':' :: ' ' :: f.2.indented indent) :: fieldsIndented indent fs

end

/-- The indented form. -/
def pretty (v : Json) : String :=
  String.ofList (v.indented 0)

end Cochange.Json
