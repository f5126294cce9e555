import Cochange.Toml.Scalar

/-!
# Reading TOML

A text is read line by line. Values may nest, and arrays go over several lines: a machine reads
them with a stack of the arrays and tables that are still open. Each of its steps takes something
from the text; one that did not would end the reading.
-/

namespace Cochange.Toml

/-- Arrays and tables nest at most so many levels, and a key has at most so many parts. -/
def maxDepth : Nat := 79

/-! ## Keys -/

/-- The characters of keys without quotes. -/
def isBare (c : Char) : Bool :=
  c.isAlphanum || c = '-' || c = '_'

/-- One part of a key. -/
def keyPart? (cs : List Char) : Option (String × List Char) :=
  match shortString? cs with
  | some r => some r
  | none =>
    let name := cs.takeWhile isBare
    if name.isEmpty then none else some (String.ofList name, cs.dropWhile isBare)

/-- The parts of a key: the first and the others. Blanks may stand around each of them. -/
def keyParts? (cs : List Char) : Option ((String × List String) × List Char) :=
  match keyPart? (skipBlanks cs) with
  | none => none
  | some (part, rest) =>
    match skipBlanks rest with
    | '.' :: rest =>
      if rest.length < cs.length then
        (keyParts? rest).map fun r => ((part, r.1.1 :: r.1.2), r.2)
      else none
    | rest => some ((part, []), rest)
termination_by cs.length

/-- A key. -/
def key? (cs : List Char) : Option (Key × List Char) :=
  match keyParts? cs with
  | none => none
  | some ((first, others), rest) =>
    let parts := first :: others
    if parts.length ≤ maxDepth then
      some (⟨parts.dropLast, others.getLastD first⟩, rest)
    else none

/-! ## Values -/

/-- An array or table that is still open. -/
inductive Frame where
  /-- An array with its items so far in reverse. -/
  | items (done : List Toml)
  /-- A table with its fields so far and the key whose value is to come. -/
  | fields (done : Fields) (key : Key)

/-- A text without the blanks, comments and line breaks in front; a comment ends at the end of
its line. -/
def skipComments (cs : List Char) : List Char :=
  match skipLines cs with
  | '#' :: rest =>
    match lineBreak? (rest.dropWhile isPlain) with
    | none => '#' :: rest
    | some next => if next.length < cs.length then skipComments next else '#' :: rest
  | rest => rest
termination_by cs.length

/-- A text without what may be skipped before and behind the values of the innermost frame. -/
def skipAround : List Frame → List Char → List Char
  | .items _ :: _, cs => skipComments cs
  | _, cs => skipBlanks cs

/-- What a step of the machine leads to. -/
inductive Progress where
  /-- A value is to come. -/
  | wanted (stack : List Frame) (rest : List Char)
  /-- A value was read. -/
  | found (stack : List Frame) (v : Toml) (rest : List Char)

/-- The text that is left. -/
def Progress.rest : Progress → List Char
  | wanted _ rest => rest
  | found _ _ rest => rest

/-- The key of the next field of a table and the equals sign behind it. -/
def wantField? (stack : List Frame) (done : Fields) (cs : List Char) : Option Progress := do
  let (key, cs) ← key? cs
  some (.wanted (.fields done key :: stack) (← after? '=' cs))

/-- The step where a value is to come. Arrays may end instead. -/
def value? (stack : List Frame) (cs : List Char) : Option Progress :=
  match skipAround stack cs, stack with
  | ']' :: cs, .items done :: stack => some (.found stack (array done.reverse) cs)
  | '[' :: cs, stack => if stack.length < maxDepth then some (.wanted (.items [] :: stack) cs) else none
  | '{' :: cs, stack =>
    if stack.length < maxDepth then
      match skipBlanks cs with
      | '}' :: cs => some (.found stack (inlineTable []) cs)
      | cs => wantField? stack [] cs
    else none
  | cs, stack => (scalar? cs).map fun r => .found stack r.1 r.2

/-- The step behind a value in the innermost frame. -/
def next? (frame : Frame) (stack : List Frame) (v : Toml) (cs : List Char) : Option Progress :=
  match frame, skipAround (frame :: stack) cs with
  | .items done, ',' :: cs => some (.wanted (.items (v :: done) :: stack) cs)
  | .items done, ']' :: cs => some (.found stack (array (v :: done).reverse) cs)
  | .fields done key, ',' :: cs => do wantField? stack (← addField done key v) cs
  | .fields done key, '}' :: cs => do some (.found stack (inlineTable (← addField done key v)) cs)
  | _, _ => none

/-- One step of the machine, or none when the outermost value was read. -/
def Progress.step? : Progress → Option Progress
  | wanted stack cs => value? stack cs
  | found (frame :: stack) v cs => next? frame stack v cs
  | found [] _ _ => none

/-- The machine. -/
def run (p : Progress) : Option (Toml × List Char) :=
  match p with
  | .found [] v rest => some (v, rest)
  | p =>
    match p.step? with
    | none => none
    | some q => if q.rest.length < p.rest.length then run q else none
termination_by p.rest.length

/-! ## Lines -/

/-- What follows the end of a line, before which there may be a comment. -/
def lineEnd? (cs : List Char) : Option (List Char) :=
  let rest :=
    match skipBlanks cs with
    | '#' :: cs => cs.dropWhile isPlain
    | cs => cs
  if rest.isEmpty then some [] else lineBreak? rest

/-- The entry of a line. -/
def entry? : List Char → Option (Entry × List Char)
  | '[' :: '[' :: cs => do
    let (key, cs) ← key? cs
    some (.itemHeader key, ← after? ']' (← after? ']' cs))
  | '[' :: cs => do
    let (key, cs) ← key? cs
    some (.header key, ← after? ']' cs)
  | cs => do
    let (key, cs) ← key? cs
    let (v, cs) ← run (.wanted [] (← after? '=' cs))
    some (.field key v, cs)

/-- A line: its entry, if it has one, and what follows the line. -/
def line? (cs : List Char) : Option (Option Entry × List Char) :=
  match lineEnd? cs with
  | some rest => some (none, rest)
  | none => do
    let (e, cs) ← entry? (skipBlanks cs)
    some (some e, ← lineEnd? cs)

/-- The entries of a text. -/
def entries? (cs : List Char) : Option (List Entry) :=
  if cs.isEmpty then some []
  else
    match line? cs with
    | none => none
    | some (e, rest) =>
      if rest.length < cs.length then (entries? rest).map fun es => e.toList ++ es else none
termination_by cs.length

/-- A text without the byte order mark in front. -/
def dropMark : List Char → List Char
  | '\ufeff' :: cs => cs
  | cs => cs

/-- The table that a text describes. -/
def parse? (s : String) : Option Fields :=
  (entries? (dropMark s.toList)).bind ofEntries

end Cochange.Toml
