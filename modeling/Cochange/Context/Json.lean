import Cochange.Context.Basic
import Cochange.Json.Printer
import Cochange.Listing
import Cochange.OutputFormat

/-!
# Coupled pairs as JSON and in listings
-/

namespace Cochange

/-- The object that stands for a pair, its fields in alphabetical order. -/
def CoupledPair.toJson (p : CoupledPair Float) : Json :=
  .ofFields [("changesA", .ofNat p.changesA), ("changesB", .ofNat p.changesB),
    ("coupling", .ofFloat p.coupling), ("entityA", .ofString p.entityA.text),
    ("entityB", .ofString p.entityB.text), ("jointChanges", .ofNat p.jointChanges)]

namespace Listing

/-- The remark where there is no pair. -/
def noCoupling : String :=
  "No significant coupling detected."

/-- A pair as a line of text. -/
def pairLine (p : CoupledPair Float) : String :=
  "  " ++ weightText p.coupling ++ "  " ++ p.entityA.text ++ " <-> " ++ p.entityB.text ++
    "  (" ++ natText p.jointChanges ++ " joint changes, " ++ natText p.changesA ++ "/" ++
    natText p.changesB ++ " changes)"

/-- A pair as a row of a table. -/
def pairRow (p : CoupledPair Float) : List String :=
  [code p.entityA.text, code p.entityB.text, weightText p.coupling, natText p.jointChanges,
    natText p.changesA, natText p.changesB]

/-- The first pairs of a context and how many entities it has. -/
def coupling (format : OutputFormat) (colors : Bool) (limit : Nat) (c : Context Float) : String :=
  let pairs := c.coupledPairs (some limit)
  let size := natText c.size
  match format with
  | .json =>
    lines [(Json.ofFields [("entities", .ofNat c.size),
      ("pairs", .array (pairs.map (·.toJson)))]).pretty]
  | .markdown =>
    lines <|
      ["# Temporal Coupling", "", "**Entities tracked:** " ++ size, ""] ++
        table
          ["Entity A", "Entity B", "Coupling", "Joint changes", "Changes A", "Changes B"]
          (pairs.map pairRow) noCoupling
  | .text =>
    lines <|
      [bold colors "Temporal coupling" ++ " (" ++ size ++ " entities tracked)", ""] ++
        if pairs.isEmpty then ["  " ++ noCoupling] else pairs.map pairLine

end Listing

end Cochange
