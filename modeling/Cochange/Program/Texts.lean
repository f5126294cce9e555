import Cochange.Listing

/-!
# Fixed texts of the program

The greeting, the version, and the configuration to start from. That configuration says nothing
that is not the default; it only lists what can be said.
-/

namespace Cochange.Program

open Listing (lines styled)

/-- The version. -/
def version : String :=
  "0.1.0"

/-- The name of the configuration file that is read if no other is named. -/
def configFile : String :=
  ".chronoscope.toml"

/-- A line of the greeting: what to enter, in a color and with spaces up to a column, and what
that does. -/
def entry (code : String) (colors : Bool) (column : Nat) (what does : String) : String :=
  "  " ++ styled code colors what ++
    String.ofList (List.replicate (column - what.length) ' ') ++ does

/-- The greeting. -/
def welcome (colors : Bool) : String :=
  let start := entry "36" colors 47
  let command := entry "32" colors 18
  lines [
    styled "1" colors "chronoscope" ++ " v" ++ version ++ ", temporal coupling analysis",
    "",
    "Quick start:",
    start "chronoscope init" "Create a .chronoscope.toml config file",
    start "chronoscope coupling --history h.jsonl" "List coupled entities",
    "",
    "All commands:",
    command "coupling" "Most temporally coupled entity pairs",
    command "divergent-change" "Files with several responsibilities",
    command "feature-envy" "Functions coupled to foreign files",
    command "init" "Create default configuration",
    "",
    "Run 'chronoscope <command> --help' for details."]

/-- The configuration to start from. -/
def configTemplate : String :=
  lines [
    "# Chronoscope Configuration",
    "",
    "[coupling]",
    "# max_change_set = 100   # revisions touching more files are ignored for joint changes",
    "# min_revisions = 5      # minimum revisions of an entity or coupling relation",
    "# min_coupling = 0.1     # minimum temporal coupling between two entities",
    "",
    "[divergent_change]",
    "# min_blob_density = 2.5",
    "# max_anti_coupling = 0.5",
    "# min_anti_blob_size = 10",
    "# min_metric_value = 0",
    "",
    "[feature_envy]",
    "# min_envy_ratio = 1.0",
    "# max_envied_files = 1",
    "# min_metric_value = 1",
    "",
    "# Track more than functions for some languages",
    "# [languages.java]",
    "# extensions = [\"java\"]",
    "# track = [\"function\", \"variable\"]"]

end Cochange.Program
