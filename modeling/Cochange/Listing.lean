import Cochange.Decimal.Layout

/-!
# The make-up of listings

Headings are bold where colors are used. Weights are shown with two places. In Markdown a listing
is a table under a heading.
-/

namespace Cochange.Listing

/-- A text between an escape sequence that starts a style and the one that ends it. -/
def styled (code : String) (colors : Bool) (s : String) : String :=
  if colors then "\x1b[" ++ code ++ "m" ++ s ++ "\x1b[0m" else s

/-- A text in bold type. -/
def bold (colors : Bool) (s : String) : String :=
  styled "1" colors s

/-- Lines, each with its line feed. -/
def lines (ls : List String) : String :=
  String.join (ls.map (· ++ "\n"))

/-- A number as text. -/
def natText (n : Nat) : String :=
  String.ofList (Decimal.digits n)

/-- A weight with two places. -/
def weightText (x : Float) : String :=
  Decimal.fixedText 2 x

/-- A text in a Markdown code span. -/
def code (s : String) : String :=
  "`" ++ s ++ "`"

/-- A row of a Markdown table. -/
def row (cells : List String) : String :=
  "| " ++ " | ".intercalate cells ++ " |"

/-- The line under the titles of a Markdown table: a dash for every character and two more. -/
def rule (titles : List String) : String :=
  "|" ++ String.join (titles.map fun t => String.ofList (List.replicate (t.length + 2) '-') ++ "|")

/-- A Markdown table, or a remark if it would have no rows. -/
def table (titles : List String) (rows : List (List String)) (remark : String) : List String :=
  if rows.isEmpty then [remark] else row titles :: rule titles :: rows.map row

end Cochange.Listing
