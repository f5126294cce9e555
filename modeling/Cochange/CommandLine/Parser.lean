import Cochange.CommandLine.Options
import Cochange.Text.Split

/-!
# Reading the command line

Arguments are taken in order. An option that takes a value has it behind an equals sign or as the
next argument, which must not look like an option. Between the program and its command, and again
behind the command, an option may be given once; behind the command it prevails.
-/

namespace Cochange.CommandLine

/-- Why a command line is refused. -/
inductive UsageError where
  | unknownOption (name : String)
  | repeatedOption (name : String)
  | missingValue (name : String)
  | unwantedValue (name : String)
  | badValue (name value : String)
  | unexpected (word : String)
  deriving DecidableEq, Repr

/-- The text of the error. -/
def UsageError.message : UsageError → String
  | unknownOption name => "unexpected option '" ++ name ++ "'"
  | repeatedOption name => "the option '--" ++ name ++ "' cannot be used multiple times"
  | missingValue name => "a value is required for '--" ++ name ++ "'"
  | unwantedValue name => "the option '--" ++ name ++ "' takes no value"
  | badValue name value => "invalid value '" ++ value ++ "' for '--" ++ name ++ "'"
  | unexpected word => "unexpected argument '" ++ word ++ "'"

/-- What a command line asks for. -/
inductive Request where
  /-- To run a command or, without one, to greet. -/
  | run (command : Option Command) (options : Options)
  | version

/-- How an argument looks. -/
inductive Argument where
  /-- Two dashes, behind which nothing is an option. -/
  | dashes
  /-- `--name` or `--name=value`. -/
  | long (name : String) (value : Option String)
  /-- A dash and letters that are each an option. -/
  | short (letters : List Char)
  | word (s : String)

/-- The look of an argument. A single dash is a word. -/
def Argument.ofString (s : String) : Argument :=
  match s.toList with
  | ['-', '-'] => dashes
  | '-' :: '-' :: cs =>
    let parts := Text.cutFirst '=' cs
    long (String.ofList parts.1) (parts.2.map String.ofList)
  | '-' :: c :: cs => short (c :: cs)
  | _ => word s

/-- Reading so far: the command, if there was one, the options, and the names of those given since
the command. -/
structure Reading where
  command : Option Command := none
  options : Options := {}
  given : List String := []

namespace Reading

/-- Whether an option can stand here. -/
def allows (r : Reading) (name : String) : Bool :=
  Options.common.contains name || (r.command.map (·.ownOptions)).any (·.contains name)

/-- Takes in an option; the value is none if the option has none. -/
def give (r : Reading) (name : String) (value : Option String) : Except UsageError Reading :=
  if r.given.contains name then .error (.repeatedOption name)
  else
    match (match value with
      | none => r.options.setFlag? name
      | some v => r.options.setValue? name v) with
    | none => .error (.badValue name (value.getD ""))
    | some options => .ok { r with options, given := name :: r.given }

/-- Takes in options of one letter. True if the version is asked for. -/
def giveLetters (r : Reading) : List Char → Except UsageError (Reading × Bool)
  | [] => .ok (r, false)
  | 'v' :: cs =>
    match r.give "verbose" none with
    | .error e => .error e
    | .ok r => r.giveLetters cs
  | c :: cs =>
    if c = 'V' && r.command.isNone then .ok (r, true)
    else .error (.unknownOption (String.ofList ('-' :: c :: cs)))

/-- Takes in the arguments. -/
def read (r : Reading) : List String → Except UsageError Request
  | [] => .ok (.run r.command r.options)
  | arg :: rest =>
    match Argument.ofString arg with
    | .dashes =>
      match rest with
      | [] => .ok (.run r.command r.options)
      | word :: _ => .error (.unexpected word)
    | .word s =>
      match r.command, Command.ofName? s with
      | none, some command => read { r with command, given := [] } rest
      | _, _ => .error (.unexpected s)
    | .short letters =>
      match r.giveLetters letters with
      | .error e => .error e
      | .ok (_, true) => .ok .version
      | .ok (r, false) => r.read rest
    | .long name value =>
      if name = "version" && r.command.isNone then
        if value.isSome then .error (.unwantedValue name) else .ok .version
      else if !r.allows name then .error (.unknownOption ("--" ++ name))
      else if (r.options.setFlag? name).isSome then
        if value.isSome then .error (.unwantedValue name)
        else
          match r.give name none with
          | .error e => .error e
          | .ok r => r.read rest
      else
        match value, rest with
        | some v, rest =>
          match r.give name v with
          | .error e => .error e
          | .ok r => r.read rest
        | none, [] => .error (.missingValue name)
        | none, next :: rest =>
          match Argument.ofString next with
          | .word v =>
            match r.give name v with
            | .error e => .error e
            | .ok r => r.read rest
          | _ => .error (.missingValue name)

end Reading

/-- What a command line asks for. -/
def parse (args : List String) : Except UsageError Request :=
  Reading.read {} args

end Cochange.CommandLine
