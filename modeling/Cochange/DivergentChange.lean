import Cochange.Blob.Search
import Cochange.Context.Projection
import Cochange.Graph.Coloring

/-!
# Divergent change

A file changes divergently when its entities fall apart into groups that are changed for reasons
of their own. Every blob of the file's graph is one responsibility of the file, and so is its
anti-blob.
-/

namespace Cochange

namespace DivergentChange

/-- The responsibilities of a source file. -/
structure FileReport (ω : Type) where
  file : String
  blobs : List (Subgraph ω)
  antiBlob : Option (Subgraph ω)

namespace FileReport

variable {ω : Type}

/-- The blobs, and the anti-blob as one more. -/
def responsibilities (r : FileReport ω) : Nat :=
  r.blobs.length + if r.antiBlob.isSome then 1 else 0

/-- Files with more responsibilities come first. -/
def le (r s : FileReport ω) : Bool :=
  ((compare s.responsibilities r.responsibilities).then (compare r.file s.file)).isLE

end FileReport

/-- The files of a context and their graphs, blobs and anti-blob colored. -/
structure Report (ω : Type) where
  files : List (FileReport ω)
  coloredGraphs : List (ColoredGraph ω)

/-- The files with at least `minValue` responsibilities. -/
def Report.filesAbove {ω : Type} (r : Report ω) (minValue : Nat) : List (FileReport ω) :=
  r.files.filter fun f => minValue ≤ f.responsibilities

/-- The thresholds of the analysis. -/
structure Thresholds (ω : Type) where
  minBlobDensity : ω
  maxAntiCoupling : ω
  minAntiBlobSize : Nat
  deriving Repr

variable {ω : Type} [Weight ω]

/-- The responsibilities of the file with this graph, and the graph colored by them. -/
def analyzeGraph (t : Thresholds ω) (g : Graph ω) :
    Except (SearchError ω) (FileReport ω × ColoredGraph ω) :=
  match g.findBlobs t.minBlobDensity with
  | .error e => .error e
  | .ok blobs =>
    match g.findAntiBlob t.maxAntiCoupling t.minAntiBlobSize with
    | .error e => .error e
    | .ok antiBlob =>
      let groups := (blobs ++ antiBlob.toList).map fun s => s.nodes.toList
      .ok ({ file := g.label, blobs, antiBlob }, .ofGroups g groups)

/-- The report on a context. -/
def analyze (t : Thresholds ω) (c : Context ω) : Except (SearchError ω) (Report ω) :=
  match c.fileGraphs.mapM (analyzeGraph t) with
  | .error e => .error e
  | .ok results =>
    .ok { files := (results.map (·.1)).mergeSort FileReport.le
          coloredGraphs := results.map (·.2) }

end DivergentChange

end Cochange
