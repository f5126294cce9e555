import Cochange.Blob.SearchError
import Cochange.Context.Projection
import Cochange.Graph.Coloring

/-!
# Feature envy

An entity envies another file when it is coupled to the entities of that file more than to those
of its own. Couplings to a file are added up over its entities.
-/

namespace Cochange

namespace FeatureEnvy

/-- An entity that envies a file. -/
structure Instance (ω : Type) where
  function : QualifiedId
  selfCoupling : ω
  enviedFile : String
  enviedCoupling : ω

/-- The source file of the entity: its id up to the first separator. -/
def Instance.file {ω : Type} (i : Instance ω) : String :=
  String.ofList (i.function.text.toList.takeWhile fun ch => ch ≠ ':' && ch ≠ '#')

/-- The thresholds of the analysis. -/
structure Thresholds (ω : Type) where
  minEnvyRatio : ω
  maxEnviedFiles : Nat
  deriving Repr

variable {ω : Type} [Weight ω]

/-- For each entity with couplings the sum of its couplings to each file. -/
def totals (c : Context ω) :
    Std.ExtTreeMap QualifiedId (Std.ExtTreeMap String ω) :=
  c.cells.foldl
    (fun totals cell =>
      totals.alter cell.1 fun files =>
        some ((files.getD ∅).alter cell.2.1.sourcePath fun sum =>
          some (Weight.add (sum.getD Weight.zero) cell.2.2)))
    ∅

/-- The order of the files that an entity envies: from the most coupled to the least, then by
path. -/
def fileOrder (x y : String × ω) : Ordering :=
  (Weight.order y.2 x.2).then (compare x.1 y.1)

/-- The instances of one entity, given the sums of its couplings: the other files to which it is
coupled by more than `ratio` times its coupling to its own file, at most `maxFiles` of them. -/
def instancesOf (ratio : ω) (maxFiles : Nat) (function : QualifiedId)
    (files : Std.ExtTreeMap String ω) : List (Instance ω) :=
  let own := files[function.sourcePath]?.getD Weight.zero
  let threshold := Weight.mul own ratio
  let envied := files.toList.filter fun f =>
    f.1 ≠ function.sourcePath && Weight.lt threshold f.2
  ((envied.mergeSort fun x y => (fileOrder x y).isLE).take maxFiles).map fun f =>
    { function, selfCoupling := own, enviedFile := f.1, enviedCoupling := f.2 }

/-- The order of instances: from the most coupled to the least, then by entity. -/
def instanceOrder (i j : Instance ω) : Ordering :=
  (Weight.order j.enviedCoupling i.enviedCoupling).then (compare i.function j.function)

/-- Whether a ratio can be used: it lies between zero and one. -/
def isRatio (x : ω) : Bool :=
  Weight.le Weight.zero x && Weight.le x Weight.one

/-- All instances of a context. -/
def find (c : Context ω) (ratio : ω) (maxFiles : Nat) :
    Except (SearchError ω) (List (Instance ω)) :=
  if !isRatio ratio then .error (.badEnvyRatio ratio)
  else if maxFiles = 0 then .error .zeroMaxFiles
  else
    let instances := (totals c).toList.flatMap fun t => instancesOf ratio maxFiles t.1 t.2
    .ok (instances.mergeSort fun i j => (instanceOrder i j).isLE)

/-- The instances of a source file. -/
structure FileReport (ω : Type) where
  file : String
  instances : List (Instance ω)

/-- How many instances there are. -/
def FileReport.count {ω : Type} (r : FileReport ω) : Nat :=
  r.instances.length

/-- The envious files of a context and, for each, the graph of it and of the files it envies. -/
structure Report (ω : Type) where
  files : List (FileReport ω)
  coloredGraphs : List (ColoredGraph ω)

/-- The files with at least `minValue` instances. -/
def Report.filesAbove {ω : Type} (r : Report ω) (minValue : Nat) : List (FileReport ω) :=
  r.files.filter fun f => minValue ≤ f.count

/-- The instances by source file, those of one file in their order. -/
def byFile {ω : Type} (instances : List (Instance ω)) :
    Std.ExtTreeMap String (List (Instance ω)) :=
  instances.foldr (fun i m => m.alter i.file fun is => some (i :: is.getD [])) ∅

/-- The graph of an envious file and of the files it envies. The entities of each of these files
have a color of their own, and so has, above these, the entity of each instance. -/
def coloredGraph {ω : Type} (c : Context ω) (file : String) (instances : List (Instance ω)) :
    ColoredGraph ω :=
  let files : LabelSet := (Std.ExtTreeSet.ofList (instances.map (·.enviedFile))).insert file
  let ids := c.idsByFile
  let groups := files.toList.filterMap fun f => (ids[f]?).map fun s => s.toList
  let graph := c.graphOf file (Std.ExtTreeSet.ofList groups.flatten)
  .ofGroups graph
    (groups.map (fun g => g.map (·.text)) ++ instances.map fun i => [i.function.text])

/-- The report on a context. -/
def analyze (t : Thresholds ω) (c : Context ω) : Except (SearchError ω) (Report ω) :=
  match find c t.minEnvyRatio t.maxEnviedFiles with
  | .error e => .error e
  | .ok instances =>
    let files := (byFile instances).toList
    let reports := files.map fun f => ({ file := f.1, instances := f.2 } : FileReport ω)
    .ok { files := reports.mergeSort fun r s => s.count ≤ r.count
          coloredGraphs := files.map fun f => coloredGraph c f.1 f.2 }

end FeatureEnvy

end Cochange
