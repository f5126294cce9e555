import Cochange.Config.Basic
import Cochange.Revision.Basic
import Cochange.Toml.Parser

/-!
# Configurations as TOML

A configuration is a TOML table with a table for each group of settings. What is left out has its
default, what is unknown is passed over. A whole number may stand for a weight, not the other way
round. Instead of a table a group may be an array of its settings in the order of declaration.
-/

namespace Cochange

namespace Toml

/-- A list of strings. -/
def strings? : Toml → Option (List String)
  | array items => items.mapM fun
    | text s => some s
    | _ => none
  | _ => none

/-- A natural number of at most `limit`. -/
def nat? (limit : Nat) : Toml → Option Nat
  | integer n => if 0 ≤ n ∧ n ≤ limit then some n.toNat else none
  | _ => none

/-- A weight. -/
def weight? : Toml → Option Float
  | float x => some x
  | integer n => some (Decimal.signed (n < 0) (Decimal.nearestFloat n.natAbs 0))
  | _ => none

/-- The settings given in a group, by name. In a table all of them may be missing, in an array the
last ones. A date has none. -/
def settings? (names : List String) : Toml → Option Fields
  | inlineTable fields => some fields
  | table _ fields => some fields
  | array items => some (names.zip items)
  | date => some []
  | _ => none

/-- The setting of a name, or the default if it is not given. -/
def setting? {α : Type} (fields : Fields) (name : String) (read : Toml → Option α) (default : α) :
    Option α :=
  match fields.lookup name with
  | none => some default
  | some v => read v

end Toml

open Toml

/-- The settings of the count. -/
def CouplingSettings.ofToml? (v : Toml) : Option (CouplingSettings Float) := do
  let fields ← settings? ["max_change_set", "min_revisions", "min_coupling"] v
  let d := CouplingSettings.default
  some {
    maxChangeSet := ← setting? fields "max_change_set" (nat? maxSetting) d.maxChangeSet
    minRevisions := ← setting? fields "min_revisions" (nat? maxRevisions) d.minRevisions
    minCoupling := ← setting? fields "min_coupling" weight? d.minCoupling }

/-- The settings for divergent change. -/
def DivergentChange.Settings.ofToml? (v : Toml) : Option (DivergentChange.Settings Float) := do
  let fields ← settings?
    ["min_blob_density", "max_anti_coupling", "min_anti_blob_size", "min_metric_value"] v
  let d := DivergentChange.Settings.default
  some {
    minBlobDensity := ← setting? fields "min_blob_density" weight? d.minBlobDensity
    maxAntiCoupling := ← setting? fields "max_anti_coupling" weight? d.maxAntiCoupling
    minAntiBlobSize := ← setting? fields "min_anti_blob_size" (nat? maxSetting) d.minAntiBlobSize
    minMetricValue := ← setting? fields "min_metric_value" (nat? maxSetting) d.minMetricValue }

/-- The settings for feature envy. -/
def FeatureEnvy.Settings.ofToml? (v : Toml) : Option (FeatureEnvy.Settings Float) := do
  let fields ← settings? ["min_envy_ratio", "max_envied_files", "min_metric_value"] v
  let d := FeatureEnvy.Settings.default
  some {
    minEnvyRatio := ← setting? fields "min_envy_ratio" weight? d.minEnvyRatio
    maxEnviedFiles := ← setting? fields "max_envied_files" (nat? maxSetting) d.maxEnviedFiles
    minMetricValue := ← setting? fields "min_metric_value" (nat? maxSetting) d.minMetricValue }

/-- The rule of a language. Its extensions must be given; by default it tracks functions. -/
def LanguageRule.ofToml? (v : Toml) : Option LanguageRule := do
  let fields ← settings? ["extensions", "track"] v
  some {
    extensions := ← (← fields.lookup "extensions").strings?
    track := ← setting? fields "track" strings? [NodeKind.function.name] }

/-- The rules of languages, by name. -/
def LanguageRule.allOfToml? : Toml → Option (Std.ExtTreeMap String LanguageRule)
  | inlineTable fields | table _ fields =>
    fields.foldlM (fun rules f => (LanguageRule.ofToml? f.2).map (rules.insert f.1 ·)) ∅
  | _ => none

/-- The configuration that a TOML text describes. -/
def Config.parse? (s : String) : Option (Config Float) := do
  let fields ← Toml.parse? s
  let d := Config.default
  some {
    coupling := ← setting? fields "coupling" CouplingSettings.ofToml? d.coupling
    divergentChange :=
      ← setting? fields "divergent_change" DivergentChange.Settings.ofToml? d.divergentChange
    featureEnvy := ← setting? fields "feature_envy" FeatureEnvy.Settings.ofToml? d.featureEnvy
    languages := ← setting? fields "languages" LanguageRule.allOfToml? d.languages }

end Cochange
