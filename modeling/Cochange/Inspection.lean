import Cochange.ChangeCounter
import Cochange.Config.Basic
import Cochange.History

/-!
# Inspecting a history

From a configuration and a history to the context and the reports. Whatever is wrong first ends
the inspection.
-/

namespace Cochange

/-- Why an inspection gives no result. -/
inductive InspectionError where
  | config (why : ConfigError Float)
  | search (why : SearchError Float)
  | history (why : HistoryError)
  /-- A revision adds a node that cannot be named. -/
  | badId (why : IdError)

/-- The count after the revisions that were read, up to the first error. -/
def ChangeCounter.processRead (c : ChangeCounter) :
    List (Except HistoryError Revision) → Except InspectionError ChangeCounter
  | [] => .ok c
  | .error why :: _ => .error (.history why)
  | .ok r :: rest =>
    match c.process r with
    | (_, some why) => .error (.badId why)
    | (c, none) => c.processRead rest

namespace Config

/-- The context of a history. Only the settings of the count are looked at, and then the
languages. -/
def context (c : Config Float) (history : List (Except HistoryError Revision)) :
    Except InspectionError (Context Float) :=
  match c.coupling.fault?, c.registry with
  | some why, _ => .error (.config why)
  | none, .error why => .error (.config why)
  | none, .ok languages =>
    match (ChangeCounter.start languages c.coupling.maxChangeSet).processRead history with
    | .error e => .error e
    | .ok counter => .ok (counter.finish c.coupling.minRevisions c.coupling.minCoupling)

/-- The divergent change of a context. -/
def divergentChangeReport (c : Config Float) (context : Context Float) :
    Except InspectionError (DivergentChange.Report Float) :=
  match c.divergentChange.fault? with
  | some why => .error (.config why)
  | none => (DivergentChange.analyze c.divergentChange.toThresholds context).mapError .search

/-- The feature envy of a context. -/
def featureEnvyReport (c : Config Float) (context : Context Float) :
    Except InspectionError (FeatureEnvy.Report Float) :=
  match c.featureEnvy.fault? with
  | some why => .error (.config why)
  | none => (FeatureEnvy.analyze c.featureEnvy.toThresholds context).mapError .search

end Config

end Cochange
