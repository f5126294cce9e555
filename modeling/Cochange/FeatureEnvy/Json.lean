import Cochange.FeatureEnvy
import Cochange.Graph.Json
import Cochange.Json.Printer
import Cochange.Listing
import Cochange.OutputFormat

/-!
# Feature envy as JSON and in listings
-/

namespace Cochange

namespace FeatureEnvy

/-- The object that stands for an instance. -/
def Instance.toJson (i : Instance Float) : Json :=
  .ofFields [("function", .ofString i.function.text), ("selfCoupling", .ofFloat i.selfCoupling),
    ("enviedFile", .ofString i.enviedFile), ("enviedCoupling", .ofFloat i.enviedCoupling)]

/-- The object that stands for the report on a file. -/
def FileReport.toJson (r : FileReport Float) : Json :=
  .ofFields [("file", .ofString r.file), ("instances", .array (r.instances.map (·.toJson))),
    ("featureEnvyCount", .ofNat r.count),
    ("category", .ofString "Temporal Coupling Anti-Patterns"), ("name", .ofString "Feature Envy"),
    ("value", .ofNat r.count)]

/-- The object that stands for a report. -/
def Report.toJson (r : Report Float) : Json :=
  .ofFields [("files", .array (r.files.map (·.toJson))),
    ("coloredGraphs", .array (r.coloredGraphs.map (·.toJson)))]

end FeatureEnvy

namespace Listing

/-- The remark where no file is envied. -/
def noFeatureEnvy : String :=
  "No Feature Envy detected."

/-- An instance as a line of text. -/
def instanceLine (i : FeatureEnvy.Instance Float) : String :=
  "    " ++ i.function.text ++ " -> " ++ i.enviedFile ++ " (" ++ weightText i.enviedCoupling ++
    " vs " ++ weightText i.selfCoupling ++ " own)"

/-- A file and its instances as lines of text. -/
def envyLines (colors : Bool) (r : FeatureEnvy.FileReport Float) : List String :=
  ("  " ++ bold colors r.file ++ ": " ++ natText r.count ++ " instances") ::
    r.instances.map instanceLine

/-- An instance as a row of a table. -/
def instanceRow (i : FeatureEnvy.Instance Float) : List String :=
  [code i.function.text, code i.enviedFile, weightText i.enviedCoupling,
    weightText i.selfCoupling]

/-- The files with envious entities. -/
def featureEnvy (format : OutputFormat) (colors : Bool)
    (files : List (FeatureEnvy.FileReport Float)) : String :=
  match format with
  | .json => lines [(Json.array (files.map (·.toJson))).pretty]
  | .markdown =>
    lines <|
      ["# Feature Envy", ""] ++
        table ["Function", "Envied file", "Envied coupling", "Own coupling"]
          (files.flatMap fun r => r.instances.map instanceRow) noFeatureEnvy
  | .text =>
    lines <|
      [bold colors "Feature Envy", ""] ++
        if files.isEmpty then ["  " ++ noFeatureEnvy] else files.flatMap (envyLines colors)

end Listing

end Cochange
