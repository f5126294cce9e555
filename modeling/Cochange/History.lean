import Cochange.Revision.Json

/-!
# Written histories

A history is a text with one revision to a line, in JSON. Lines end with a line feed, before
which a carriage return may stand; blank lines are passed over. Each line gives a revision or
an error of its own, and reading goes on after errors.

Lines are numbered from one, blank ones included. A line that is not UTF-8 has no number and
does not count.
-/

namespace Cochange

/-- What is wrong with a line that should hold a revision. -/
inductive RecordError where
  | decode (why : DecodeError)
  | badRevisionId (id : String)
  deriving DecidableEq

/-- The text of the error, if it has one. -/
def RecordError.message? : RecordError → Option String
  | decode why => why.message?
  | badRevisionId id => some ("invalid revision id '" ++ id ++ "'")

/-- Why a line of a history gives no revision. -/
inductive HistoryError where
  /-- The bytes of the line are not UTF-8. -/
  | notUtf8
  | badRecord (line : Nat) (why : RecordError)
  deriving DecidableEq

namespace History

/-- A line without the carriage return at its end. -/
def dropReturn (l : List UInt8) : List UInt8 :=
  if l.getLast? = some 13 then l.dropLast else l

/-- The lines of some bytes, without what ends them. Bytes behind the last line feed are a line
too, kept as they are. -/
def lines (bs : List UInt8) : List (List UInt8) :=
  match h : bs.dropWhile (· ≠ 10) with
  | [] => if bs.isEmpty then [] else [bs]
  | _ :: rest =>
    have : rest.length < bs.length := by
      have := (List.dropWhile_sublist (l := bs) (· ≠ 10)).length_le
      rw [h, List.length_cons] at this
      omega
    dropReturn (bs.takeWhile (· ≠ 10)) :: lines rest
termination_by bs.length

/-- The revision that a line spells. All of the line is read before the revision's own id is
looked at. -/
def parseLine (s : String) : Except RecordError Revision :=
  let d := Json.Document.ofString s
  match Revision.decode d.value with
  | .error e => .error (.decode e)
  | .ok r =>
    if d.hasMore then .error (.decode .malformed)
    else if Revision.isValidId r.id then .ok r
    else .error (.badRevisionId r.id)

/-- What the lines behind the first `n` give. -/
def readLines (n : Nat) : List (List UInt8) → List (Except HistoryError Revision)
  | [] => []
  | l :: ls =>
    match String.fromUTF8? ⟨l.toArray⟩ with
    | none => .error .notUtf8 :: readLines n ls
    | some s =>
      if Text.isBlank s.toList then readLines (n + 1) ls
      else
        (match parseLine s with
          | .ok r => .ok r
          | .error why => .error (.badRecord (n + 1) why)) :: readLines (n + 1) ls

/-- What the lines of a history give: a revision or an error for each that is not blank. -/
def read (bytes : List UInt8) : List (Except HistoryError Revision) :=
  readLines 0 (lines bytes)

/-- A revision as a line of a history. -/
def lineOf (r : Revision) : String :=
  r.toJson.render ++ "\n"

/-- Revisions as a history. -/
def write (rs : List Revision) : String :=
  String.join (rs.map lineOf)

end History

end Cochange
