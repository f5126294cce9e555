import Cochange.Instant.Basic
import Cochange.SourceNode.Basic
import Cochange.QualifiedId.Parse
import Cochange.Text.Alphanumeric
import Std.Data.ExtTreeSet

/-!
# Revisions

A revision is a commit as the analysis sees it: who changed what when. Its edits add nodes with
all below them, remove nodes with all below them, or change the contents of entities. The change
set of a revision is the set of source files that its edits touch.
-/

namespace Cochange

/-- A change to the source tree. -/
inductive Edit where
  | addNode (id : QualifiedId) (node : SourceNode)
  | removeNode (id : QualifiedId)
  | editEntity (id : QualifiedId)

namespace Edit

/-- The node that is changed. -/
def id : Edit → QualifiedId
  | addNode id _ => id
  | removeNode id => id
  | editEntity id => id

/-- The source file of the node that is changed. -/
def sourcePath (e : Edit) : String :=
  e.id.sourcePath

end Edit

/-- A commit. -/
structure Revision where
  id : String
  date : Instant
  author : String
  edits : List Edit

namespace Revision

/-- The source files a revision touches. -/
def changeSet (r : Revision) : Std.ExtTreeSet String :=
  Std.ExtTreeSet.ofList (r.edits.map (·.sourcePath))

/-- Whether a text can be the id of a revision: letters, digits, hyphens and underscores, at least
one. -/
def isValidId (id : String) : Bool :=
  let cs := id.toList
  !cs.isEmpty && cs.all fun c => c = '-' || c = '_' || Text.isAlphanumeric c

end Revision

end Cochange
