import Cochange.CommandLine.Parser
import Cochange.Config.Reading
import Cochange.Inspection
import Cochange.Context.Json
import Cochange.DivergentChange.Json
import Cochange.FeatureEnvy.Json
import Cochange.Path
import Cochange.Program.Texts

/-!
# Running the program

The program reads a configuration and a history, prints a listing and writes the graphs behind it.
It is written for any host that offers what it needs, be it a real one or a model.

What was printed and written before something fails remains.
-/

namespace Cochange

/-- What reading a file gives. -/
inductive FileContent where
  | absent
  /-- There is something, but it cannot be read as a file. -/
  | unreadable
  | bytes (content : List UInt8)

/-- What the program needs around it. -/
class Host (m : Type → Type) where
  readFile : String → m FileContent
  /-- The bytes given as input, unless input would come from a terminal. -/
  input? : m (Option (List UInt8))
  /-- Whether output goes to a terminal that may show colors. -/
  showsColors : m Bool
  print : String → m Unit
  /-- Tells the user about the run, beside the output. -/
  note : String → m Unit
  /-- Tells the user what went wrong. -/
  complain : String → m Unit
  /-- Writes a file with a name and a content into a directory, which is made if it is missing.
  Tells whether that was possible. -/
  writeFile : String → String → String → m Bool

namespace Program

open CommandLine

/-- Why a run fails. -/
inductive Failure where
  | unreadable (path : String)
  | badConfig (path : String)
  | configExists
  | noHistory
  | inspection (why : InspectionError)
  | unwritable (directory : String)

/-- The text of a failed inspection. -/
def inspectionMessage : InspectionError → String
  | .config why => why.message
  | .search why => why.message
  | .badId why => why.message
  | .history .notUtf8 => "stream did not contain valid UTF-8"
  | .history (.badRecord line why) =>
    "history error at line " ++ Listing.natText line ++ ": " ++
      why.message?.getD "malformed record"

/-- The text of a failure. -/
def Failure.message : Failure → String
  | unreadable path => "cannot read " ++ path
  | badConfig path => path ++ " is no configuration"
  | configExists => configFile ++ " already exists"
  | noHistory => "No history given"
  | inspection why => inspectionMessage why
  | unwritable directory => "cannot write to " ++ directory

variable {m : Type → Type} [Monad m] [Host m]

/-- A part of a run, which may fail. -/
abbrev Action (m : Type → Type) :=
  ExceptT Failure m

/-- Goes on with a result or fails. -/
def orFail {α : Type} : Except InspectionError α → Action m α
  | .ok a => pure a
  | .error why => throw (.inspection why)

/-- The configuration in the bytes of a file. -/
def configOf (path : String) (content : List UInt8) : Action m (Config Float) :=
  match (String.fromUTF8? ⟨content.toArray⟩).bind Config.parse? with
  | some c => pure c
  | none => throw (.badConfig path)

/-- The configuration: that of the file that is named, that of the usual file if there is one, or
else the default. -/
def loadConfig (o : Options) : Action m (Config Float) := do
  let path := o.config.getD configFile
  match ← (Host.readFile path : m FileContent) with
  | .bytes content => configOf path content
  | .unreadable => throw (.unreadable path)
  | .absent => if o.config.isSome then throw (.unreadable path) else pure .default

/-- What the lines of the history give, which is a file or the input. -/
def loadHistory (o : Options) : Action m (List (Except HistoryError Revision)) :=
  match o.history with
  | some path => do
    match ← (Host.readFile path : m FileContent) with
    | .bytes content => pure (History.read content)
    | _ => throw (.unreadable path)
  | none => do
    match ← (Host.input? : m (Option (List UInt8))) with
    | some content => pure (History.read content)
    | none => throw .noHistory

/-- Whether the listing has colors. -/
def usesColors (o : Options) : m Bool :=
  match o.color with
  | .always => pure true
  | .never => pure false
  | .auto => Host.showsColors

/-- Writes the graphs of an analysis, each into a directory of its own, up to the first that cannot
be written. -/
def writeGraphs (o : Options) (analysis : String) : List (ColoredGraph Float) → Action m Unit
  | [] => pure ()
  | g :: gs =>
    if o.noGraphs then pure ()
    else do
      let directory := Path.ofGraph o.graphDir analysis g.graph.label
      if ← (Host.writeFile directory "graph.json" g.toJson.pretty : m Bool) then
        writeGraphs o analysis gs
      else throw (.unwritable directory)

/-- Writes the configuration to start from, unless there is one already. -/
def writeConfig : Action m Unit := do
  match ← (Host.readFile configFile : m FileContent) with
  | .absent =>
    if ← (Host.writeFile "" configFile configTemplate : m Bool) then
      (Host.print ("Created " ++ configFile ++ " with default configuration\n") : m Unit)
    else throw (.unwritable configFile)
  | _ => throw .configExists

/-- The context of the history under a configuration, which must be sound. -/
def inspect (o : Options) (c : Config Float) : Action m (Context Float) := do
  match c.fault? with
  | some why => throw (.inspection (.config why))
  | none => orFail (c.context (← loadHistory o))

/-- Runs a command under a configuration. -/
def runCommand (o : Options) (colors : Bool) (c : Config Float) : Command → Action m Unit
  | .coupling => do
    let context ← inspect o c
    (Host.print (Listing.coupling o.format colors o.limit context) : m Unit)
  | .divergentChange => do
    let report ← orFail (c.divergentChangeReport (← inspect o c))
    let files := report.filesAbove c.divergentChange.minMetricValue
    (Host.print (Listing.divergentChange o.format colors files) : m Unit)
    writeGraphs o Command.divergentChange.name report.coloredGraphs
  | .featureEnvy => do
    let report ← orFail (c.featureEnvyReport (← inspect o c))
    let files := report.filesAbove c.featureEnvy.minMetricValue
    (Host.print (Listing.featureEnvy o.format colors files) : m Unit)
    writeGraphs o Command.featureEnvy.name report.coloredGraphs
  | .init => writeConfig

/-- What a verbose run tells about itself. -/
def about (o : Options) (c : Config Float) : String :=
  Listing.lines <|
    ("format: " ++ o.format.name) ::
      if c.languages.isEmpty then []
      else ["Language analyzers: " ++ ", ".intercalate c.languages.keys]

/-- Runs a command or greets. -/
def execute (command : Option Command) (o : Options) : Action m Unit := do
  let colors ← (usesColors o : m Bool)
  let config ← loadConfig o
  if o.verbose then
    (Host.note (about o config) : m Unit)
  match command with
  | none => (Host.print (welcome colors) : m Unit)
  | some command => runCommand o colors (o.override command config) command

/-- Runs the program with arguments. The result is its exit code: 0, 1 if the run fails, 2 if the
arguments are refused. -/
def run (args : List String) : m Nat := do
  match CommandLine.parse args with
  | .error why =>
    Host.complain why.message
    return 2
  | .ok .version =>
    Host.print ("chronoscope " ++ version ++ "\n")
    return 0
  | .ok (.run command o) =>
    match ← (execute command o).run with
    | .ok () => return 0
    | .error why =>
      Host.complain why.message
      return 1

end Program

end Cochange
