import Cochange.Program.Run

/-!
# A model of a host

A machine keeps a few files, an input, and what the program has printed. Files are found by the
names on the way to them from the directory in which the program runs; a directory exists as long
as there is a file below it. A way may go up, and out of that directory; what lies there is kept
apart from what lies in it.
-/

namespace Cochange

/-- The state of a machine. -/
structure Machine where
  /-- The files: the way to each and its content. -/
  files : List (List String × String) := []
  input : String := ""
  output : String := ""
  notes : String := ""
  complaints : String := ""

namespace Machine

/-- Whether a way leads to a file. -/
def isFile (m : Machine) (way : List String) : Bool :=
  m.files.any (·.1 = way)

/-- Whether a way leads to a directory. -/
def isDirectory (m : Machine) (way : List String) : Bool :=
  way.all (fun s => s = ".." || s = "/") || m.files.any fun f => way <+: f.1 && way ≠ f.1

/-- The way one directory up. -/
def up (way : List String) : List String :=
  match way.getLast? with
  | none | some ".." => way ++ [".."]
  | some "/" => way
  | some _ => way.dropLast

/-- The way to the directory that a path names, if the path can be gone. Missing directories on
the path are made if wanted. -/
def directory? (m : Machine) (make : Bool) (path : String) : Option (List String) :=
  (Path.segments path).foldlM
    (fun way segment =>
      if segment = "" || segment = "." then some way
      else if segment = ".." then some (up way)
      else
        let way := way ++ [segment]
        if m.isFile way || !(make || m.isDirectory way) then none else some way)
    (if Path.isAbsolute path then ["/"] else [])

/-- The way to the file that a path names, as far as its directory exists. -/
def way? (m : Machine) (path : String) : Option (List String) :=
  let parts := Path.segments path
  let name := parts.getLastD ""
  let directory := "/".intercalate parts.dropLast
  if Path.isName name then
    (m.directory? false (if Path.isAbsolute path then "/" ++ directory else directory)).map
      (· ++ [name])
  else none

/-- What reading a file gives. -/
def readFile (m : Machine) (path : String) : FileContent :=
  match m.way? path with
  | none => if (m.directory? false path).isSome then .unreadable else .absent
  | some way =>
    match m.files.lookup way with
    | some content => .bytes content.toUTF8.toList
    | none => if m.isDirectory way then .unreadable else .absent

/-- The machine with a file written, if that is possible. -/
def writeFile? (m : Machine) (directory name content : String) : Option Machine :=
  match m.directory? true directory with
  | none => none
  | some way =>
    let way := way ++ [name]
    if m.isDirectory way then none
    else some { m with files := (way, content) :: m.files.filter (·.1 ≠ way) }

instance : Host (StateM Machine) where
  readFile path := do return (← get).readFile path
  input? := do return some (← get).input.toUTF8.toList
  showsColors := return false
  print s := modify fun m => { m with output := m.output ++ s }
  note s := modify fun m => { m with notes := m.notes ++ s }
  complain s := modify fun m => { m with complaints := m.complaints ++ s ++ "\n" }
  writeFile directory name content := do
    match (← get).writeFile? directory name content with
    | some m =>
      set m
      return true
    | none => return false

/-- The exit code of a run and the machine after it. -/
def run (m : Machine) (args : List String) : Nat × Machine :=
  (Program.run args : StateM Machine Nat).run m

end Machine

end Cochange
