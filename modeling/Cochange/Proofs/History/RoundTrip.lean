import Cochange.Proofs.History.Lines
import Cochange.Proofs.History.Revisions
import Cochange.Proofs.Json.Reading

/-!
# Histories read back

A written history has a line for each revision. No control character stands in a written value
(`le_of_mem_written`), since all of them are escaped, so a line ends where it was ended and nowhere
before, and no carriage return is taken off it. Each line is then read by itself.

Main result: `read_write` — revisions that can be written are what is read from the history written
of them, in their order, without errors.
-/

namespace Cochange

namespace Json

/-! ## Written values hold no control characters -/

theorem le_hexDigit {n : Nat} (h : n < 16) : 0x20 ≤ (hexDigit n).toNat := by
  have hall : ∀ n < 16, 0x20 ≤ (hexDigit n).toNat := by decide
  exact hall n h

theorem le_of_mem_escape {c d : Char} (hd : d ∈ escape c) : 0x20 ≤ d.toNat := by
  rcases Token.escape_cases c with ⟨e, hw, -, -, he⟩ | ⟨hw, hcontrol⟩ | ⟨hw, -, -, hplain⟩
  · rw [hw] at hd
    rcases List.mem_pair.mp hd with rfl | rfl
    · decide
    · exact he
  · rw [hw] at hd
    simp only [List.mem_cons, List.not_mem_nil, or_false] at hd
    rcases hd with rfl | rfl | rfl | rfl | rfl | rfl
    · decide
    · decide
    · decide
    · decide
    · exact le_hexDigit (by omega)
    · exact le_hexDigit (by omega)
  · rw [hw] at hd
    rw [List.mem_singleton.mp hd]
    exact Nat.le_of_not_lt hplain

theorem le_of_mem_quote {cs : List Char} {d : Char} (hd : d ∈ quote cs) : 0x20 ≤ d.toNat := by
  rcases List.mem_append.mp hd with hd | hd
  · rcases List.mem_cons.mp hd with rfl | hd
    · decide
    · obtain ⟨c, -, hd⟩ := List.mem_flatMap.mp hd
      exact le_of_mem_escape hd
  · rw [List.mem_singleton.mp hd]
    decide

theorem le_of_mem_commaSeparated {ts : List (List Char)}
    (h : ∀ t ∈ ts, ∀ d ∈ t, 0x20 ≤ d.toNat) : ∀ d ∈ commaSeparated ts, 0x20 ≤ d.toNat := by
  cases ts with
  | nil => exact fun d hd => absurd hd List.not_mem_nil
  | cons t ts =>
    intro d hd
    rw [commaSeparated_cons] at hd
    rcases List.mem_append.mp hd with hd | hd
    · exact h t List.mem_cons_self d hd
    · obtain ⟨u, hu, hd⟩ := List.mem_flatMap.mp hd
      rcases List.mem_cons.mp hd with rfl | hd
      · decide
      · exact h u (List.mem_cons_of_mem t hu) d hd

/-- Something between two brackets. -/
theorem le_of_mem_between {l r : Char} (hl : 0x20 ≤ l.toNat) (hr : 0x20 ≤ r.toNat) {cs : List Char}
    (h : ∀ d ∈ cs, 0x20 ≤ d.toNat) : ∀ d ∈ l :: cs ++ [r], 0x20 ≤ d.toNat := by
  intro d hd
  rcases List.mem_append.mp hd with hd | hd
  · rcases List.mem_cons.mp hd with rfl | hd
    · exact hl
    · exact h d hd
  · rw [List.mem_singleton.mp hd]
    exact hr

/-- What is written holds no control character, so a record never breaks its line. -/
theorem le_of_mem_written {v : Json} (hv : Textual v) : ∀ d ∈ v.written, 0x20 ≤ d.toNat := by
  induction hv with
  | text s =>
    rw [ofString, written]
    exact fun d hd => le_of_mem_quote hd
  | array h ih =>
    rw [written, itemsWritten_eq_map]
    refine le_of_mem_between (by decide) (by decide) (le_of_mem_commaSeparated ?_)
    exact List.forall_mem_map.mpr ih
  | fields h ih =>
    rw [ofFields, written, fieldsWritten_eq_map, List.map_map]
    refine le_of_mem_between (by decide) (by decide) (le_of_mem_commaSeparated ?_)
    refine List.forall_mem_map.mpr fun f hf d hd => ?_
    rcases List.mem_append.mp hd with hd | hd
    · exact le_of_mem_quote hd
    · rcases List.mem_cons.mp hd with rfl | hd
      · decide
      · exact ih f hf d hd

end Json

/-- A revision that can be written so that it is read back: its id is one, its year has four
digits, and its object does not nest too deeply. -/
structure Revision.Writable (r : Revision) : Prop where
  valid_id : Revision.isValidId r.id = true
  year_nonneg : 0 ≤ r.date.date.year
  year_le : r.date.date.year ≤ 9999
  nesting_le : r.toJson.nesting ≤ Json.maxDepth

namespace History

open Text (bytes)

/-! ## Lines -/

/-- A written line ends where it was ended, and no carriage return is taken off it. -/
theorem lines_cons {l : List UInt8} (hl : ∀ b ∈ l, 0x20 ≤ b.toNat) (rest : List UInt8) :
    lines (l ++ 10 :: rest) = l :: lines rest := by
  have hfeed : 10 ∉ l := fun hmem => absurd (hl 10 hmem) (by decide)
  have hreturn : l.getLast? ≠ some 13 :=
    fun hlast => absurd (hl 13 (List.mem_of_getLast? hlast)) (by decide)
  rw [lines_feed hfeed, dropReturn, if_neg hreturn]

/-! ## Reading a line -/

/-- A revision is what the line written for it spells. -/
theorem parseLine_render {r : Revision} (hr : r.Writable) : parseLine r.toJson.render = .ok r := by
  unfold parseLine
  rw [Json.ofString_render r.textual_toJson]
  dsimp only
  rw [Revision.decode_toJson hr.year_nonneg hr.year_le hr.nesting_le]
  dsimp only
  rw [if_neg Bool.false_ne_true, if_pos hr.valid_id]

/-- A written record is not a blank line, so it is not skipped. -/
theorem isBlank_render (r : Revision) : Text.isBlank r.toJson.render.toList = false := by
  rw [Json.render, String.toList_ofList]
  rfl

/-- The step of reading back: a written line gives its revision, and the rest is read on. -/
theorem readLines_cons {r : Revision} (hr : r.Writable) (n : Nat) (ls : List (List UInt8)) :
    readLines n (bytes r.toJson.written :: ls) = .ok r :: readLines (n + 1) ls := by
  have hutf8 : String.fromUTF8? ⟨(bytes r.toJson.written).toArray⟩ = some r.toJson.render :=
    Text.fromUTF8?_bytes _
  rw [readLines, hutf8]
  dsimp only
  rw [if_neg (by rw [isBlank_render]; decide), parseLine_render hr]

/-! ## Histories -/

/-- The bytes of a history: those of each line, and a line feed behind it. -/
theorem toUTF8_write_cons (r : Revision) (rs : List Revision) :
    (write (r :: rs)).toUTF8.toList = bytes r.toJson.written ++ 10 :: (write rs).toUTF8.toList := by
  have hline : (lineOf r).toList = r.toJson.written ++ ['\n'] := by
    rw [lineOf, String.toList_append, Json.render, String.toList_ofList]
    rfl
  have hfeed : bytes ['\n'] = [10] := rfl
  rw [Text.toList_toUTF8, Text.toList_toUTF8, write, List.map_cons, String.join_cons,
    String.toList_append, hline, Text.bytes_append, Text.bytes_append, hfeed, List.append_assoc]
  rfl

theorem toUTF8_write_nil : (write []).toUTF8.toList = [] := by
  rw [Text.toList_toUTF8]
  rfl

/-- Revisions that can be written are read back from the history written of them: all of them, in
their order, and nothing else. -/
theorem read_write (rs : List Revision) (hrs : ∀ r ∈ rs, r.Writable) :
    read (write rs).toUTF8.toList = rs.map .ok := by
  have hlines : ∀ n, readLines n (lines (write rs).toUTF8.toList) = rs.map .ok := by
    induction rs with
    | nil =>
      intro n
      rw [toUTF8_write_nil, lines_nil]
      rfl
    | cons r rs ih =>
      intro n
      have hcontrol := Text.le_of_mem_bytes (by decide) (Json.le_of_mem_written r.textual_toJson)
      rw [toUTF8_write_cons, lines_cons hcontrol, readLines_cons (hrs r List.mem_cons_self),
        ih (fun s hs => hrs s (List.mem_cons_of_mem r hs)), List.map_cons]
  exact hlines 0

/-- Two commits whose texts hold quotes, backslashes, control characters, line breaks and letters
beyond ASCII, the first in a leap second. -/
def hardHistory : List Revision :=
  [{ id := "ß-1"
     date := ⟨⟨2016, 12, 31, by decide, by decide, by decide, by decide⟩,
       ⟨86399, 1500000000, by decide, by decide, by decide⟩⟩
     author := "Ada \"\\\" \r\n"
     edits :=
      [.addNode (.ofPath ⟨"src/\"a\\b\".rs", by decide⟩)
        (.file "src/\"a\\b\".rs"
          [.type "Größe" (.ofList ["B", "A"]) (.ofList ["pub\n"])
            [.function "f(\u0085,\u2028)" ["x\t"] ∅ ["\"", "\\u0022", "\x00\x1f\x7f", "😀"],
              .var "v" ∅ ["\n", "\r\n"]]])] },
   { id := "r_2"
     date := ⟨⟨0, 2, 29, by decide, by decide, by decide, by decide⟩,
       ⟨0, 1, by decide, by decide, by decide⟩⟩
     author := ""
     edits :=
      [.editEntity { path := ⟨"a.rs", by decide⟩, types := [⟨"A\n", by decide⟩]
                     member := some ⟨"f(\"\\n)", by decide⟩ },
        .removeNode (.ofPath ⟨"\u2028.rs", by decide⟩)] }]

/-- Reading back at a history with escapes, foreign line breaks, a leap second and the year 0. -/
theorem read_write_hard : (∀ r ∈ hardHistory, r.Writable) ∧
    read (write hardHistory).toUTF8.toList = hardHistory.map .ok := by
  have hwritable : ∀ r ∈ hardHistory, r.Writable := by
    simp only [hardHistory, List.forall_mem_cons]
    refine ⟨⟨?_, ?_, ?_, ?_⟩, ⟨?_, ?_, ?_, ?_⟩, List.forall_mem_nil _⟩
    · decide +kernel
    · decide
    · decide
    · decide +kernel
    · decide
    · decide
    · decide
    · decide +kernel
  exact ⟨hwritable, read_write hardHistory hwritable⟩

end History

end Cochange
