import Cochange.Text.Characters
import Cochange.Text.CaseTable

/-!
# Lower case

Full lower-casing of text. Each capital is replaced by its small letter; `İ` becomes an `i`
with a dot above, two characters; and a capital sigma becomes `ς` at the end of a word and
`σ` elsewhere. A sigma ends a word when, passing over the characters that do not matter for
case, a cased character stands before it and none stands after it.
-/

namespace Cochange.Text

/-- Whether the first character that matters for case is a cased one. -/
def startsCased (cs : List Char) : Bool :=
  match cs.dropWhile (inRanges caseIgnorableRanges) with
  | [] => false
  | c :: _ => inRanges casedRanges c

namespace CapitalRun

/-- The small letter of a capital of this run. -/
def lower? (r : CapitalRun) (c : Char) : Option Char :=
  let n := c.toNat
  if r.first ≤ n && n ≤ r.last && (n - r.first) % r.step = 0 then
    some (Char.ofNat (n + r.offset).toNat)
  else
    none

end CapitalRun

/-- The lower-case form of a character by itself. -/
def lowerChar (c : Char) : List Char :=
  if c.toNat < 0x80 then [c.toLower]
  else if c = 'İ' then ['i', '\u0307']
  else [(capitalRuns.findSome? (·.lower? c)).getD c]

/-- The lower-case form of a text that stands after the characters `before`, nearest first. -/
def lowerAfter (before : List Char) : List Char → List Char
  | [] => []
  | c :: cs =>
    let here :=
      if c = 'Σ' then [if startsCased before && !startsCased cs then 'ς' else 'σ']
      else lowerChar c
    here ++ lowerAfter (c :: before) cs

/-- The text in lower case. -/
def lowercase (s : String) : String :=
  String.ofList (lowerAfter [] s.toList)

end Cochange.Text
