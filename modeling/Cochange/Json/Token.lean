import Cochange.Json.Basic
import Cochange.Text.Characters

/-!
# The tokens of JSON text

A text is cut into punctuation, words, numbers and string literals; white space between them is
dropped. Where no token begins, `fault` is the last one.
-/

namespace Cochange.Json

/-- The smallest parts of JSON text. -/
inductive Token where
  | openArray
  | closeArray
  | openObject
  | closeObject
  | comma
  | colon
  | scalar (v : Json)
  | literal (s : Literal)
  /-- No token begins here. -/
  | fault

namespace Token

open Text (hexValue?)

/-! ## Strings -/

/-- The character an escape of one letter stands for. -/
def escaped? : Char → Option Char
  | '"' => some '"'
  | '\\' => some '\\'
  | '/' => some '/'
  | 'b' => some '\x08'
  | 'f' => some '\x0c'
  | 'n' => some '\n'
  | 'r' => some '\r'
  | 't' => some '\t'
  | _ => none

/-- What is read of a literal: its characters, unless an escape is unpaired, and the text behind
the closing quote. -/
abbrev Scan :=
  Option (Option (List Char) × List Char)

/-- A character in front of what is read. -/
def Scan.cons (c : Char) (s : Scan) : Scan :=
  s.map fun r => (r.1.map (c :: ·), r.2)

/-- Half of a surrogate pair in front of what is read. -/
def Scan.unpaired (s : Scan) : Scan :=
  s.map fun r => (none, r.2)

/-- The rest of a literal behind its opening quote. -/
def scanLiteral : List Char → Scan
  | [] => none
  | '"' :: cs => some (some [], cs)
  | '\\' :: 'u' :: a :: b :: c :: d :: '\\' :: 'u' :: a' :: b' :: c' :: d' :: cs =>
    match hexValue? [a, b, c, d] with
    | none => none
    | some n =>
      if 0xd800 ≤ n ∧ n < 0xdc00 then
        match hexValue? [a', b', c', d'] with
        | some m =>
          if 0xdc00 ≤ m ∧ m < 0xe000 then
            (scanLiteral cs).cons (Char.ofNat (0x10000 + (n - 0xd800) * 0x400 + (m - 0xdc00)))
          else
            (scanLiteral ('\\' :: 'u' :: a' :: b' :: c' :: d' :: cs)).unpaired
        | none => none
      else if 0xdc00 ≤ n ∧ n < 0xe000 then
        (scanLiteral ('\\' :: 'u' :: a' :: b' :: c' :: d' :: cs)).unpaired
      else
        (scanLiteral ('\\' :: 'u' :: a' :: b' :: c' :: d' :: cs)).cons (Char.ofNat n)
  | '\\' :: 'u' :: a :: b :: c :: d :: cs =>
    match hexValue? [a, b, c, d] with
    | none => none
    | some n =>
      if 0xd800 ≤ n ∧ n < 0xe000 then (scanLiteral cs).unpaired
      else (scanLiteral cs).cons (Char.ofNat n)
  | '\\' :: e :: cs =>
    match escaped? e with
    | none => none
    | some c => (scanLiteral cs).cons c
  | c :: cs => if c.toNat < 0x20 ∨ c = '\\' then none else (scanLiteral cs).cons c

/-! ## Numbers -/

/-- The longest run of digits in front and what follows it. -/
def digitRun (cs : List Char) : List Char × List Char :=
  cs.span Char.isDigit

/-- The digits behind a point and what follows them; a point wants at least one. -/
def scanFraction : List Char → Option (List Char × List Char)
  | '.' :: cs =>
    let run := digitRun cs
    if run.1.isEmpty then none else some run
  | cs => some ([], cs)

/-- The digits of an exponent behind its sign. -/
def scanExponentDigits (negative : Bool) (cs : List Char) : Option (Option Int × List Char) :=
  let run := digitRun cs
  if run.1.isEmpty then none
  else
    let e : Int := Decimal.value run.1
    some (some (if negative then -e else e), run.2)

/-- The exponent in front, if there is one, and what follows it. -/
def scanExponent : List Char → Option (Option Int × List Char)
  | 'e' :: cs | 'E' :: cs =>
    match cs with
    | '+' :: cs => scanExponentDigits false cs
    | '-' :: cs => scanExponentDigits true cs
    | cs => scanExponentDigits false cs
  | cs => some (none, cs)

/-- The number in front, its sign already read, and what follows it. The digits before the point
begin with a zero only if there is no other. -/
def scanNumber (negative : Bool) (cs : List Char) : Option (Numeral × List Char) :=
  let run := digitRun cs
  match run.1 with
  | [] => none
  | '0' :: _ :: _ => none
  | whole =>
    match scanFraction run.2 with
    | none => none
    | some (fraction, cs) =>
      match scanExponent cs with
      | none => none
      | some (exponent, cs) => some ({ negative, whole, fraction, exponent }, cs)

/-! ## Tokens -/

/-- The token in front of a text that begins with no white space, and what follows it. -/
def next : List Char → Token × List Char
  | '[' :: cs => (openArray, cs)
  | ']' :: cs => (closeArray, cs)
  | '{' :: cs => (openObject, cs)
  | '}' :: cs => (closeObject, cs)
  | ',' :: cs => (comma, cs)
  | ':' :: cs => (colon, cs)
  | 'n' :: 'u' :: 'l' :: 'l' :: cs => (scalar null, cs)
  | 't' :: 'r' :: 'u' :: 'e' :: cs => (scalar (bool true), cs)
  | 'f' :: 'a' :: 'l' :: 's' :: 'e' :: cs => (scalar (bool false), cs)
  | '"' :: cs =>
    match scanLiteral cs with
    | some (some s, rest) => (literal (.text (String.ofList s)), rest)
    | some (none, rest) => (literal .unpaired, rest)
    | none => (fault, [])
  | '-' :: cs =>
    match scanNumber true cs with
    | some (n, rest) => (scalar (number n), rest)
    | none => (fault, [])
  | cs =>
    match scanNumber false cs with
    | some (n, rest) => (scalar (number n), rest)
    | none => (fault, [])

/-- The white space of JSON. -/
def isBetween (c : Char) : Bool :=
  c = ' ' || c = '\t' || c = '\n' || c = '\r'

/-- The tokens of a text; a text has at most as many as characters. -/
def scanWithin : Nat → List Char → List Token
  | 0, _ => []
  | fuel + 1, cs =>
    match cs.dropWhile isBetween with
    | [] => []
    | c :: cs =>
      match next (c :: cs) with
      | (fault, _) => [fault]
      | (t, rest) => t :: scanWithin fuel rest

/-- The tokens of a text. -/
def scan (cs : List Char) : List Token :=
  scanWithin (cs.length + 1) cs

end Token

end Cochange.Json
