import Cochange.QualifiedId.Basic
import Cochange.Text.Hidden

/-!
# Languages

Which entities of a file are tracked depends on the language of the file. Languages are asked in
the order in which they are registered, the first one that covers the path decides; a file that
none covers has its functions tracked.

What a language covers and what it tracks is its own affair: a language is any two predicates with
a name, and whatever is proved of all `Languages` holds of all of them. Two kinds come with the
program. A language of the configuration goes by the extensions of files (`Language.ofExtensions`),
the fallback covers every file.

Extensions are compared in lower case. The extension of a path is what follows the last point of
its last segment.
-/

namespace Cochange

/-- A language: which files are its own, and entities of which kinds are tracked in them. -/
structure Language where
  name : String
  /-- Whether the language covers the file with a path. -/
  covers : String → Bool
  /-- Whether entities of a kind are tracked. -/
  tracks : NodeKind → Bool

namespace Language

/-- What follows the last `sep` of a text, if there is one. -/
def afterLast? (sep : Char) (cs : List Char) : Option (List Char) :=
  if sep ∈ cs then some (cs.reverse.takeWhile (· ≠ sep)).reverse else none

/-- The extension of a path: what follows the last point of its last segment. -/
def extension? (path : String) : Option String :=
  let cs := path.toList
  (afterLast? '.' ((afterLast? '/' cs).getD cs)).map String.ofList

/-- An extension as it is stored: without the points in front of it, and in lower case. -/
def storedExtension (e : String) : String :=
  Text.lowercase (String.ofList (e.toList.dropWhile (· = '.')))

/-- Whether a path has one of some extensions, which are given as they are stored. -/
def hasExtension (stored : List String) (path : String) : Bool :=
  match extension? path with
  | none => false
  | some e => stored.contains (Text.lowercase e)

/-- A language for files with some extensions. Points in front of an extension do not count, and
files are never tracked as a whole. -/
def ofExtensions (name : String) (extensions : List String) (tracked : List NodeKind) :
    Language where
  name
  covers := hasExtension (extensions.map storedExtension)
  tracks := (tracked.filter (·.isEntity)).contains

/-- The language of files that no other covers. -/
def fallback : Language where
  name := "default"
  covers _ := true
  tracks kind := kind == .function

end Language

/-- The registered languages, in the order in which they are asked. -/
structure Languages where
  list : List Language := []

namespace Languages

/-- The language of a file. -/
def resolve (ls : Languages) (path : String) : Language :=
  (ls.list.find? (·.covers path)).getD .fallback

/-- Whether an entity of this kind is tracked. -/
def isTrackable (ls : Languages) (id : QualifiedId) (kind : NodeKind) : Bool :=
  (ls.resolve id.sourcePath).tracks kind

/-- The names of the registered languages. -/
def names (ls : Languages) : List String :=
  ls.list.map (·.name)

/-- The registered languages as they are shown to the user. -/
def description (ls : Languages) : String :=
  "AnalyzerRegistry \x7b analyzers: [" ++ ", ".intercalate (ls.names.map Text.quoted) ++ "] \x7d"

end Languages

end Cochange
