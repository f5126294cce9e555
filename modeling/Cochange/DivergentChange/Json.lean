import Cochange.DivergentChange
import Cochange.Graph.Json
import Cochange.Json.Printer
import Cochange.Listing
import Cochange.OutputFormat

/-!
# Divergent change as JSON and in listings
-/

namespace Cochange

namespace DivergentChange

/-- The object that stands for the report on a file. -/
def FileReport.toJson (r : FileReport Float) : Json :=
  .ofFields [("file", .ofString r.file), ("blobs", .array (r.blobs.map (·.toJson))),
    ("antiBlob", r.antiBlob.elim .null (·.toJson)),
    ("responsibilities", .ofNat r.responsibilities), ("category", .ofString "SOLID Breakers"),
    ("name", .ofString "Single Responsibility Breakers"), ("value", .ofNat r.responsibilities)]

/-- The object that stands for a report. -/
def Report.toJson (r : Report Float) : Json :=
  .ofFields [("files", .array (r.files.map (·.toJson))),
    ("coloredGraphs", .array (r.coloredGraphs.map (·.toJson)))]

end DivergentChange

namespace Listing

/-- The remark where no file changes divergently. -/
def noDivergentChange : String :=
  "No Divergent Change detected."

/-- A blob as a line of text, given its number. -/
def blobLine (number : Nat) (s : Subgraph Float) : String :=
  "    blob " ++ natText number ++ " (density " ++ weightText s.density ++ "): " ++
    ", ".intercalate s.nodes.toList

/-- An anti-blob as a line of text. -/
def antiBlobLine (s : Subgraph Float) : String :=
  "    anti-blob (density " ++ weightText s.density ++ "): " ++ natText s.size ++ " entities"

/-- A file and its responsibilities as lines of text. -/
def responsibilityLines (colors : Bool) (r : DivergentChange.FileReport Float) : List String :=
  ("  " ++ bold colors r.file ++ ": " ++ natText r.responsibilities ++ " responsibilities") ::
    r.blobs.mapIdx (fun i s => blobLine (i + 1) s) ++ r.antiBlob.toList.map antiBlobLine

/-- A file as a row of a table. -/
def responsibilityRow (r : DivergentChange.FileReport Float) : List String :=
  [code r.file, natText r.responsibilities, natText r.blobs.length,
    natText (r.antiBlob.elim 0 (·.size))]

/-- The files that change divergently. -/
def divergentChange (format : OutputFormat) (colors : Bool)
    (files : List (DivergentChange.FileReport Float)) : String :=
  match format with
  | .json => lines [(Json.array (files.map (·.toJson))).pretty]
  | .markdown =>
    lines <|
      ["# Divergent Change", ""] ++
        table ["File", "Responsibilities", "Blobs", "Anti-blob size"]
          (files.map responsibilityRow) noDivergentChange
  | .text =>
    lines <|
      [bold colors "Divergent Change", ""] ++
        if files.isEmpty then ["  " ++ noDivergentChange]
        else files.flatMap (responsibilityLines colors)

end Listing

end Cochange
