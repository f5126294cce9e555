import Cochange.Text.Lowercase

/-!
# Output formats

Reports are written as text, as JSON or as Markdown.
-/

namespace Cochange

/-- How a report is written. -/
inductive OutputFormat where
  | text
  | json
  | markdown
  deriving DecidableEq, Repr

namespace OutputFormat

/-- The word for a format. -/
def name : OutputFormat → String
  | text => "text"
  | json => "json"
  | markdown => "markdown"

/-- A word that names no format, in lower case. -/
structure UnknownName where
  lowered : String
  deriving DecidableEq, Repr

/-- The format that a word names in any letter case. -/
def ofName (word : String) : Except UnknownName OutputFormat :=
  match Text.lowercase word with
  | "text" => .ok text
  | "json" => .ok json
  | "markdown" | "md" => .ok markdown
  | other => .error ⟨other⟩

/-- The text of the error. -/
def UnknownName.message (e : UnknownName) : String :=
  "unknown output format: " ++ e.lowered

end OutputFormat

end Cochange
