import Cochange.Text.Characters

/-!
# TOML strings

There are four kinds of strings: between one or three quotes of either sort. Between double quotes
a backslash begins an escape. Between three quotes there may be several lines; the first line
break does not count if the string begins with it, and each one is a line feed whatever it is in
the text. Control characters stand in no string, the tab excepted.
-/

namespace Cochange.Toml

/-- The blanks of TOML. -/
def isBlank (c : Char) : Bool :=
  c = ' ' || c = '\t'

/-- Whether a character may stand in strings and comments. -/
def isPlain (c : Char) : Bool :=
  c = '\t' || (0x20 ≤ c.toNat && c.toNat ≠ 0x7f)

/-- A text without the blanks in front. -/
def skipBlanks (cs : List Char) : List Char :=
  cs.dropWhile isBlank

/-- What follows a line break. -/
def lineBreak? : List Char → Option (List Char)
  | '\n' :: cs | '\r' :: '\n' :: cs => some cs
  | _ => none

/-- A text without the blanks and line breaks in front. -/
def skipLines : List Char → List Char
  | '\r' :: '\n' :: cs => skipLines cs
  | c :: cs => if isBlank c || c = '\n' then skipLines cs else c :: cs
  | [] => []

/-! ## The pieces of a string -/

/-- A piece of a string: the characters it stands for, whether the string ends with it, and the
text behind it. -/
structure Piece where
  chars : List Char
  isLast : Bool
  rest : List Char

/-- The character of an escape with `width` hexadecimal digits. -/
def codePoint? (width : Nat) (cs : List Char) : Option Piece :=
  let ds := cs.take width
  if ds.length < width then none
  else
    match Text.hexValue? ds with
    | none => none
    | some n => if n.isValidChar then some ⟨[Char.ofNat n], false, cs.drop width⟩ else none

/-- The piece behind a backslash. -/
def escape? : List Char → Option Piece
  | 'b' :: cs => some ⟨['\x08'], false, cs⟩
  | 't' :: cs => some ⟨['\t'], false, cs⟩
  | 'n' :: cs => some ⟨['\n'], false, cs⟩
  | 'f' :: cs => some ⟨['\x0c'], false, cs⟩
  | 'r' :: cs => some ⟨['\r'], false, cs⟩
  | '"' :: cs => some ⟨['"'], false, cs⟩
  | '\\' :: cs => some ⟨['\\'], false, cs⟩
  | 'u' :: cs => codePoint? 4 cs
  | 'U' :: cs => codePoint? 8 cs
  | _ => none

/-- A piece that is a single character. -/
def plainPiece? : List Char → Option Piece
  | c :: cs => if isPlain c then some ⟨[c], false, cs⟩ else none
  | [] => none

/-- A piece of a string between single quotes, one on either side. -/
def literalPiece? : List Char → Option Piece
  | '\x27' :: cs => some ⟨[], true, cs⟩
  | cs => plainPiece? cs

/-- A piece of a string between double quotes, one on either side. -/
def basicPiece? : List Char → Option Piece
  | '"' :: cs => some ⟨[], true, cs⟩
  | '\\' :: cs => escape? cs
  | cs => plainPiece? cs

/-- Three closing quotes, and up to two more before them that belong to the string. -/
def closing? (quote : Char) (cs : List Char) : Option Piece :=
  let count := (cs.takeWhile (· = quote)).length
  if count < 3 then none
  else
    let inner := min (count - 3) 2
    some ⟨List.replicate inner quote, true, cs.drop (inner + 3)⟩

/-- A piece of several lines: a character or a line break. -/
def linesPiece? (cs : List Char) : Option Piece :=
  match lineBreak? cs with
  | some rest => some ⟨['\n'], false, rest⟩
  | none => plainPiece? cs

/-- A piece of a string between three single quotes on either side. -/
def literalLinesPiece? (cs : List Char) : Option Piece :=
  match closing? '\x27' cs with
  | some p => some p
  | none => linesPiece? cs

/-- A piece of a string between three double quotes on either side. A backslash at the end of a
line stands for nothing and takes the blanks and line breaks behind it along. -/
def basicLinesPiece? (cs : List Char) : Option Piece :=
  match closing? '"' cs with
  | some p => some p
  | none =>
    match cs with
    | '\\' :: cs =>
      match lineBreak? (skipBlanks cs) with
      | some rest => some ⟨[], false, skipLines rest⟩
      | none => escape? cs
    | cs => linesPiece? cs

/-! ## Strings -/

/-- The characters of a string up to its last piece, and what follows it. -/
def pieces? (piece? : List Char → Option Piece) (cs : List Char) :
    Option (List Char × List Char) :=
  match piece? cs with
  | none => none
  | some p =>
    if p.isLast then some (p.chars, p.rest)
    else if p.rest.length < cs.length then
      (pieces? piece? p.rest).map fun r => (p.chars ++ r.1, r.2)
    else none
termination_by cs.length

/-- A string whose quotes are single ones. -/
def shortString? : List Char → Option (String × List Char)
  | '"' :: cs => (pieces? basicPiece? cs).map fun r => (String.ofList r.1, r.2)
  | '\x27' :: cs => (pieces? literalPiece? cs).map fun r => (String.ofList r.1, r.2)
  | _ => none

/-- A string of any kind. -/
def string? : List Char → Option (String × List Char)
  | '"' :: '"' :: '"' :: cs =>
    (pieces? basicLinesPiece? ((lineBreak? cs).getD cs)).map fun r => (String.ofList r.1, r.2)
  | '\x27' :: '\x27' :: '\x27' :: cs =>
    (pieces? literalLinesPiece? ((lineBreak? cs).getD cs)).map fun r => (String.ofList r.1, r.2)
  | cs => shortString? cs

end Cochange.Toml
