import Cochange.CommandLine.Number
import Cochange.Config.Basic
import Cochange.OutputFormat

/-!
# Commands and options

Every command has options of its own; a few are common to all and may also stand before the
command. What an option gives overrides the configuration.
-/

namespace Cochange.CommandLine

/-- What the program is asked to do. -/
inductive Command where
  /-- List the coupled pairs. -/
  | coupling
  /-- Report on divergent change. -/
  | divergentChange
  /-- Report on feature envy. -/
  | featureEnvy
  /-- Write a configuration to start from. -/
  | init
  deriving DecidableEq, Repr

/-- When colors are used. -/
inductive ColorChoice where
  /-- If a terminal shows them. -/
  | auto
  | always
  | never
  deriving DecidableEq, Repr

/-- What the options give. -/
structure Options where
  config : Option String := none
  format : OutputFormat := .text
  verbose : Bool := false
  color : ColorChoice := .auto
  history : Option String := none
  maxChangeSet : Option Nat := none
  minRevisions : Option Nat := none
  minCoupling : Option Float := none
  limit : Nat := 20
  graphDir : String := ".chronoscope"
  noGraphs : Bool := false
  minBlobDensity : Option Float := none
  maxAntiCoupling : Option Float := none
  minAntiBlobSize : Option Nat := none
  minEnvyRatio : Option Float := none
  maxEnviedFiles : Option Nat := none
  minMetricValue : Option Nat := none

namespace Command

/-- The word for a command. -/
def name : Command → String
  | coupling => "coupling"
  | divergentChange => "divergent-change"
  | featureEnvy => "feature-envy"
  | init => "init"

/-- All commands. -/
def all : List Command :=
  [coupling, divergentChange, featureEnvy, init]

/-- The command that a word names. -/
def ofName? (word : String) : Option Command :=
  all.find? (·.name = word)

/-- The options of its own that a command has. -/
def ownOptions : Command → List String
  | coupling => historyOptions ++ ["limit"]
  | divergentChange =>
    historyOptions ++ graphOptions ++
      ["min-blob-density", "max-anti-coupling", "min-anti-blob-size", "min-metric-value"]
  | featureEnvy =>
    historyOptions ++ graphOptions ++ ["min-envy-ratio", "max-envied-files", "min-metric-value"]
  | init => []
where
  historyOptions := ["history", "max-change-set", "min-revisions", "min-coupling"]
  graphOptions := ["graph-dir", "no-graphs"]

end Command

namespace Options

/-- The options that may stand anywhere. -/
def common : List String :=
  ["config", "format", "verbose", "color"]

/-- The options with one that takes no value. -/
def setFlag? (o : Options) : String → Option Options
  | "verbose" => some { o with verbose := true }
  | "no-graphs" => some { o with noGraphs := true }
  | _ => none

/-- A path, which must not be empty. -/
def path? (s : String) : Option String :=
  if s = "" then none else some s

/-- The choice that a word names. -/
def color? : String → Option ColorChoice
  | "auto" => some .auto
  | "always" => some .always
  | "never" => some .never
  | _ => none

/-- The options with a value for one of them, if it can have that value. -/
def setValue? (o : Options) (name value : String) : Option Options :=
  let count := nat? maxSetting value
  match name with
  | "config" => (path? value).map fun v => { o with config := v }
  | "format" => (OutputFormat.ofName value).toOption.map fun v => { o with format := v }
  | "color" => (color? value).map fun v => { o with color := v }
  | "history" => (path? value).map fun v => { o with history := v }
  | "max-change-set" => count.map fun v => { o with maxChangeSet := v }
  | "min-revisions" => (revisions? maxRevisions value).map fun v => { o with minRevisions := v }
  | "min-coupling" => (weight? value).map fun v => { o with minCoupling := v }
  | "limit" => count.map fun v => { o with limit := v }
  | "graph-dir" => (path? value).map fun v => { o with graphDir := v }
  | "min-blob-density" => (weight? value).map fun v => { o with minBlobDensity := v }
  | "max-anti-coupling" => (weight? value).map fun v => { o with maxAntiCoupling := v }
  | "min-anti-blob-size" => count.map fun v => { o with minAntiBlobSize := v }
  | "min-envy-ratio" => (weight? value).map fun v => { o with minEnvyRatio := v }
  | "max-envied-files" => count.map fun v => { o with maxEnviedFiles := v }
  | "min-metric-value" => count.map fun v => { o with minMetricValue := v }
  | _ => none

/-- The settings of the count with what the options override. -/
def couplingSettings (o : Options) (s : CouplingSettings Float) : CouplingSettings Float where
  maxChangeSet := o.maxChangeSet.getD s.maxChangeSet
  minRevisions := o.minRevisions.getD s.minRevisions
  minCoupling := o.minCoupling.getD s.minCoupling

/-- The settings for divergent change with what the options override. -/
def divergentChangeSettings (o : Options) (s : DivergentChange.Settings Float) :
    DivergentChange.Settings Float where
  minBlobDensity := o.minBlobDensity.getD s.minBlobDensity
  maxAntiCoupling := o.maxAntiCoupling.getD s.maxAntiCoupling
  minAntiBlobSize := o.minAntiBlobSize.getD s.minAntiBlobSize
  minMetricValue := o.minMetricValue.getD s.minMetricValue

/-- The settings for feature envy with what the options override. -/
def featureEnvySettings (o : Options) (s : FeatureEnvy.Settings Float) :
    FeatureEnvy.Settings Float where
  minEnvyRatio := o.minEnvyRatio.getD s.minEnvyRatio
  maxEnviedFiles := o.maxEnviedFiles.getD s.maxEnviedFiles
  minMetricValue := o.minMetricValue.getD s.minMetricValue

/-- A configuration with what the options of a command override. -/
def override (o : Options) (command : Command) (c : Config Float) : Config Float :=
  let c := { c with coupling := o.couplingSettings c.coupling }
  match command with
  | .divergentChange =>
    { c with divergentChange := o.divergentChangeSettings c.divergentChange }
  | .featureEnvy => { c with featureEnvy := o.featureEnvySettings c.featureEnvy }
  | .coupling | .init => c

end Options

end Cochange.CommandLine
