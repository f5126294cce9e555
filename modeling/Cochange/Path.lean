import Cochange.Text.Split

/-!
# Paths

A path is made of segments with slashes between them. A segment is a name, or it is empty, `.` or
`..` and names nothing of its own. What is put below a directory by its names alone cannot leave
the directory.
-/

namespace Cochange.Path

/-- The segments of a path. -/
def segments (path : String) : List String :=
  let parts := Text.pieces '/' path.toList
  (parts.1 :: parts.2).map String.ofList

/-- Whether a segment is a name. -/
def isName (segment : String) : Bool :=
  segment ≠ "" && segment ≠ "." && segment ≠ ".."

/-- The names in a path, in order. -/
def names (path : String) : List String :=
  (segments path).filter isName

/-- Whether a path starts at the root. -/
def isAbsolute (path : String) : Bool :=
  path.toList.head? = some '/'

/-- A path as seen from a directory. -/
def join (directory path : String) : String :=
  if isAbsolute path || directory = "" then path
  else if directory.toList.getLast? = some '/' then directory ++ path
  else directory ++ "/" ++ path

/-- The directory for the graph with a label: below that of the analysis, by the names in the
label. -/
def ofGraph (directory analysis label : String) : String :=
  (names label).foldl join (join directory analysis)

/-- No segment holds a slash. -/
theorem slash_not_mem_of_mem_segments {path segment : String} (h : segment ∈ segments path) :
    '/' ∉ segment.toList := by
  have hp := @Text.not_mem_pieces '/' path.toList
  obtain ⟨t, ht, rfl⟩ := List.mem_map.1 h
  rw [String.toList_ofList]
  rcases List.mem_cons.1 ht with rfl | ht
  · exact hp.1
  · exact hp.2 t ht

/-- The names of a path are its segments without the empty ones, `.` and `..`. -/
theorem mem_names {path name : String} :
    name ∈ names path ↔ name ∈ segments path ∧ isName name = true :=
  List.mem_filter

end Cochange.Path
