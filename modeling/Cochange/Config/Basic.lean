import Cochange.DivergentChange
import Cochange.FeatureEnvy
import Cochange.Language

/-!
# Configurations

The settings of the count and of the two analyses, and the languages whose entities are tracked
otherwise than by default. Settings have a range; what lies outside is told by the first setting
that is wrong, in the order of declaration.
-/

namespace Cochange

/-- What is wrong with a configuration. -/
inductive ConfigError (ω : Type) where
  | zeroMaxChangeSet
  | zeroMinRevisions
  | badMinCoupling (given : ω)
  | badMinBlobDensity
  | badMaxAntiCoupling
  | zeroMinAntiBlobSize
  | badMinEnvyRatio (given : ω)
  | zeroMaxEnviedFiles
  | noExtensions (language : String)
  | unknownKind (language : String) (why : NodeKind.UnknownName)
  deriving DecidableEq

/-- The text of the error. -/
def ConfigError.message (e : ConfigError Float) : String :=
  "configuration error: " ++
    match e with
    | zeroMaxChangeSet => "max-change-set must be positive"
    | zeroMinRevisions => "min-revisions must be positive"
    | badMinCoupling x => "min-coupling can't be negative, got " ++ Decimal.plainText x
    | badMinBlobDensity => "min-blob-density can't be negative"
    | badMaxAntiCoupling => "max-anti-coupling can't be negative"
    | zeroMinAntiBlobSize => "min-anti-blob-size must be positive"
    | badMinEnvyRatio x => "min-envy-ratio must be in [0, 1], got " ++ Decimal.plainText x
    | zeroMaxEnviedFiles => "max-envied-files must be positive"
    | noExtensions language => "languages." ++ language ++ ".extensions must not be empty"
    | unknownKind language why => "languages." ++ language ++ ".track: " ++ why.message

/-- The largest number that a setting can have. -/
def maxSetting : Nat := UInt64.size - 1

/-- How changes are counted. -/
structure CouplingSettings (ω : Type) where
  /-- Revisions that touch more files than this add no joint changes. -/
  maxChangeSet : Nat
  /-- Entities and pairs with fewer revisions are left out. -/
  minRevisions : Nat
  /-- Pairs with a weaker coupling are left out. -/
  minCoupling : ω
  deriving Repr

namespace DivergentChange

/-- The thresholds of the analysis and the fewest responsibilities that are shown. -/
structure Settings (ω : Type) extends Thresholds ω where
  minMetricValue : Nat
  deriving Repr

end DivergentChange

namespace FeatureEnvy

/-- The thresholds of the analysis and the fewest instances that are shown. -/
structure Settings (ω : Type) extends Thresholds ω where
  minMetricValue : Nat
  deriving Repr

end FeatureEnvy

/-- Which files are of a language and the words for the kinds of entities tracked in them. -/
structure LanguageRule where
  extensions : List String
  track : List String
  deriving DecidableEq, Repr

/-- A configuration; its languages are in the order of their names. -/
structure Config (ω : Type) where
  coupling : CouplingSettings ω
  divergentChange : DivergentChange.Settings ω
  featureEnvy : FeatureEnvy.Settings ω
  languages : Std.ExtTreeMap String LanguageRule

/-! ## Defaults -/

/-- The default settings of the count. -/
def CouplingSettings.default : CouplingSettings Float :=
  { maxChangeSet := 100, minRevisions := 5, minCoupling := 0.1 }

/-- The default settings for divergent change. -/
def DivergentChange.Settings.default : DivergentChange.Settings Float :=
  { minBlobDensity := 2.5, maxAntiCoupling := 0.5, minAntiBlobSize := 10, minMetricValue := 0 }

/-- The default settings for feature envy. -/
def FeatureEnvy.Settings.default : FeatureEnvy.Settings Float :=
  { minEnvyRatio := 1.0, maxEnviedFiles := 1, minMetricValue := 1 }

/-- The configuration where nothing is said. -/
def Config.default : Config Float where
  coupling := .default
  divergentChange := .default
  featureEnvy := .default
  languages := ∅

/-! ## What is wrong with settings -/

variable {ω : Type} [Weight ω]

/-- What is wrong with the settings of the count. -/
def CouplingSettings.fault? (s : CouplingSettings ω) : Option (ConfigError ω) :=
  if s.maxChangeSet = 0 then some .zeroMaxChangeSet
  else if s.minRevisions = 0 then some .zeroMinRevisions
  else if !Weight.isNonnegative s.minCoupling then some (.badMinCoupling s.minCoupling)
  else none

/-- What is wrong with the thresholds for divergent change. -/
def DivergentChange.Thresholds.fault? (t : DivergentChange.Thresholds ω) :
    Option (ConfigError ω) :=
  if !Weight.isNonnegative t.minBlobDensity then some .badMinBlobDensity
  else if !Weight.isNonnegative t.maxAntiCoupling then some .badMaxAntiCoupling
  else if t.minAntiBlobSize = 0 then some .zeroMinAntiBlobSize
  else none

/-- What is wrong with the thresholds for feature envy. -/
def FeatureEnvy.Thresholds.fault? (t : FeatureEnvy.Thresholds ω) : Option (ConfigError ω) :=
  if !FeatureEnvy.isRatio t.minEnvyRatio then some (.badMinEnvyRatio t.minEnvyRatio)
  else if t.maxEnviedFiles = 0 then some .zeroMaxEnviedFiles
  else none

namespace Config

/-- The first language, by name, without extensions. -/
def languageFault? (c : Config ω) : Option (ConfigError ω) :=
  (c.languages.toList.find? (·.2.extensions.isEmpty)).map fun l => .noExtensions l.1

/-- The first setting that is wrong. -/
def fault? (c : Config ω) : Option (ConfigError ω) :=
  c.coupling.fault? <|> c.divergentChange.fault? <|> c.featureEnvy.fault? <|> c.languageFault?

/-- The language that a rule describes. -/
def language (name : String) (rule : LanguageRule) : Except (ConfigError ω) Language :=
  match rule.track.mapM NodeKind.ofName with
  | .error why => .error (.unknownKind name why)
  | .ok kinds => .ok (.ofExtensions name rule.extensions kinds)

/-- The languages of a configuration. -/
def registry (c : Config ω) : Except (ConfigError ω) Languages :=
  match c.languages.toList.mapM fun l => language l.1 l.2 with
  | .error e => .error e
  | .ok list => .ok ⟨list⟩

end Config

end Cochange
