import Cochange.History
import Cochange.Proofs.Text.Bytes
import Mathlib.Data.List.Induction

/-!
# Lines of a history by themselves

A history is read line by line, and what a line gives (`itemOf?`) is told by its bytes and by a
number, which only an error shows. That number is one more than how many lines of text stand before
it (`readLines_eq`). So it is the number of the line as long as every line before is text, and falls
behind by one for each that is not (`texts_eq_length_iff`).

A history may be cut behind any line feed: its parts give what they give as histories of their own,
with other numbers (`read_at`). Therefore bytes that are not text, put in place of a line, give
an error there and change nothing else but the numbers behind them (`read_line_by_line`).
-/

namespace Cochange

namespace History

open Text (bytes)

/-! ## Texts -/

/-- Whether some bytes are text. -/
def isText (l : List UInt8) : Bool :=
  (String.fromUTF8? ⟨l.toArray⟩).isSome

/-- The bytes that are text are those that spell characters. -/
theorem isText_iff {l : List UInt8} : isText l = true ↔ ∃ cs, l = bytes cs := by
  constructor
  · intro h
    obtain ⟨s, hs⟩ := Option.isSome_iff_exists.mp h
    rw [String.fromUTF8?] at hs
    split at hs
    next hvalid =>
      have hbytes : s.toByteArray = ⟨l.toArray⟩ := by
        rw [← Option.some.inj hs]
        rfl
      have hchars := Text.toByteArray_bytes s.toList
      rw [String.ofList_toList, hbytes] at hchars
      exact ⟨s.toList, (Array.toList_inj.mpr (ByteArray.mk.inj hchars)).symm⟩
    next => cases hs
  · intro h
    obtain ⟨cs, hcs⟩ := h
    rw [hcs, isText, Text.fromUTF8?_bytes]
    rfl

/-- Only a carriage return ends with its byte. -/
theorem eq_return_of_utf8EncodeChar {c : Char} {bs : List UInt8}
    (h : String.utf8EncodeChar c = bs ++ [13]) : c = '\r' := by
  have hmem : (13 : UInt8) ∈ String.utf8EncodeChar c := by
    rw [h]
    exact List.mem_append_right bs List.mem_cons_self
  have hascii : c.toNat < 0x80 := by
    refine Nat.lt_of_not_le fun hle => ?_
    exact absurd (Text.le_of_mem_utf8EncodeChar (Nat.le_refl 0x80) hle hmem) (by decide)
  have hall : ∀ n < 0x80, (13 : UInt8) ∈ String.utf8EncodeChar (Char.ofNat n) → n = 13 := by decide
  rw [← Char.ofNat_toNat c] at hmem
  rw [← Char.ofNat_toNat c, hall c.toNat hascii hmem]

/-- A carriage return at the end of a line does not decide whether the line is text. -/
theorem isText_concat_return (l : List UInt8) : isText (l ++ [13]) = isText l := by
  have hreturn : bytes ['\r'] = [13] := rfl
  rw [Bool.eq_iff_iff, isText_iff, isText_iff]
  constructor
  · intro ⟨cs, hcs⟩
    rcases List.eq_nil_or_concat cs with rfl | ⟨ds, c, rfl⟩
    · exact absurd hcs (by simp [bytes])
    · -- the last byte belongs to the last character, which is the carriage return
      rcases List.eq_nil_or_concat (String.utf8EncodeChar c) with hnil | ⟨bs, b, hbs⟩
      · exact absurd hnil String.utf8EncodeChar_ne_nil
      · have hlast : bytes [c] = bs ++ [b] := by
          rw [← List.concat_eq_append, ← hbs]
          exact List.append_nil _
        rw [List.concat_eq_append, Text.bytes_append, hlast, ← List.append_assoc,
          List.append_singleton_inj] at hcs
        obtain ⟨hl, hb⟩ := hcs
        rw [List.concat_eq_append, ← hb] at hbs
        obtain rfl := eq_return_of_utf8EncodeChar hbs
        rw [hreturn, ← List.nil_append [13], ← hb, List.append_singleton_inj] at hlast
        rw [← hlast.1, List.append_nil] at hl
        exact ⟨ds, hl⟩
  · intro ⟨cs, hcs⟩
    refine ⟨cs ++ ['\r'], ?_⟩
    rw [Text.bytes_append, hreturn, hcs]

/-- A carriage return at the end of a line makes no difference to whether it is text. -/
theorem isText_dropReturn (l : List UInt8) : isText (dropReturn l) = isText l := by
  unfold dropReturn
  split
  next h => rw [← isText_concat_return, List.dropLast_append_getLast? 13 h]
  next => rfl

/-! ## Lines -/

theorem lines_nil : lines [] = [] := by
  rw [lines]
  rfl

/-- A line ends at the first line feed. -/
theorem lines_feed {l : List UInt8} (hl : 10 ∉ l) (rest : List UInt8) :
    lines (l ++ 10 :: rest) = dropReturn l :: lines rest := by
  have hplain : ∀ b ∈ l, decide (b ≠ 10) = true := by
    intro b hb
    exact decide_eq_true fun he => hl (he ▸ hb)
  have hdrop : (l ++ 10 :: rest).dropWhile (· ≠ 10) = 10 :: rest := by
    rw [List.dropWhile_append_of_pos hplain]
    rfl
  have htake : (l ++ 10 :: rest).takeWhile (· ≠ 10) = l := by
    rw [List.takeWhile_append_of_pos hplain]
    simp
  rw [lines]
  split
  next heq =>
    rw [hdrop] at heq
    cases heq
  next heq =>
    rw [hdrop] at heq
    cases heq
    rw [htake]

/-- Whether some bytes are whole lines: there are none, or they end with a line feed. -/
def Whole (bs : List UInt8) : Prop :=
  bs = [] ∨ bs.getLast? = some 10

/-- Whole lines are cut from what is behind them. -/
theorem lines_append {before : List UInt8} (hbefore : Whole before) (rest : List UInt8) :
    lines (before ++ rest) = lines before ++ lines rest := by
  by_cases hfeed : 10 ∈ before
  · obtain ⟨l, after, hcut, hl⟩ := List.eq_append_cons_of_mem hfeed
    have hafter : Whole after := by
      rcases hbefore with hnil | hlast
      · exact absurd hfeed (hnil ▸ List.not_mem_nil)
      · cases after with
        | nil => exact Or.inl rfl
        | cons b bs =>
          rw [hcut, List.getLast?_append, List.getLast?_cons_cons] at hlast
          exact Or.inr (by simpa using hlast)
    rw [hcut, List.append_assoc, List.cons_append, lines_feed hl, lines_feed hl,
      lines_append hafter rest, List.cons_append]
  · rcases hbefore with rfl | hlast
    · rw [lines_nil]
      rfl
    · exact absurd (List.mem_of_getLast? hlast) hfeed
termination_by before.length
decreasing_by
  rw [hcut, List.length_append, List.length_cons]
  omega

/-! ## What a line gives -/

/-- What a line gives under a number, if it is not blank. -/
def itemOf? (number : Nat) (l : List UInt8) : Option (Except HistoryError Revision) :=
  match String.fromUTF8? ⟨l.toArray⟩ with
  | none => some (.error .notUtf8)
  | some s =>
    if Text.isBlank s.toList then none
    else
      some (match parseLine s with
        | .ok r => .ok r
        | .error why => .error (.badRecord number why))

/-- How many of some lines are text. -/
def texts (ls : List (List UInt8)) : Nat :=
  ls.countP isText

/-- An item of a line that stands so many lines of text further behind. -/
def behind (n : Nat) : Except HistoryError Revision → Except HistoryError Revision
  | .error (.badRecord line why) => .error (.badRecord (n + line) why)
  | item => item

/-- A line that is not text is answered without its number. -/
theorem itemOf?_of_not_isText {l : List UInt8} (hl : isText l = false) (number : Nat) :
    itemOf? number l = some (.error .notUtf8) := by
  rw [isText, Option.isSome_eq_false_iff, Option.isNone_iff_eq_none] at hl
  rw [itemOf?, hl]

/-- Of the number nothing depends but the number that an error shows. -/
theorem itemOf?_add (n number : Nat) (l : List UInt8) :
    itemOf? (n + number) l = (itemOf? number l).map (behind n) := by
  unfold itemOf?
  cases String.fromUTF8? ⟨l.toArray⟩ with
  | none => rfl
  | some s =>
    dsimp only
    split
    next => rfl
    next =>
      cases parseLine s with
      | error why => rfl
      | ok r => rfl

/-- The step: a line gives its item, and counts if it is text. -/
theorem readLines_step (n : Nat) (l : List UInt8) (ls : List (List UInt8)) :
    readLines n (l :: ls) = (itemOf? (n + 1) l).toList ++ readLines (n + texts [l]) ls := by
  rw [readLines, itemOf?]
  cases hs : String.fromUTF8? ⟨l.toArray⟩ with
  | none =>
    have htexts : texts [l] = 0 := by simp [texts, isText, hs]
    rw [htexts]
    rfl
  | some s =>
    have htexts : texts [l] = 1 := by simp [texts, isText, hs]
    rw [htexts]
    dsimp only
    split
    next => rfl
    next => rfl

/-- The run: lines that stand further behind give the same with other numbers. -/
theorem readLines_add (k n : Nat) (ls : List (List UInt8)) :
    readLines (k + n) ls = (readLines n ls).map (behind k) := by
  induction ls generalizing n with
  | nil => rfl
  | cons l ls ih =>
    rw [readLines_step, readLines_step, List.map_append, Nat.add_assoc, Nat.add_assoc, itemOf?_add,
      ih, Option.toList_map]

/-- Reading on: the number has moved by the lines that are text, and by no others. -/
theorem readLines_append (n : Nat) (ls ls' : List (List UInt8)) :
    readLines n (ls ++ ls') = readLines n ls ++ readLines (n + texts ls) ls' := by
  induction ls generalizing n with
  | nil => rfl
  | cons l ls ih =>
    have htexts : texts ([l] ++ ls) = texts [l] + texts ls := List.countP_append
    rw [List.singleton_append] at htexts
    rw [List.cons_append, readLines_step, readLines_step, ih, htexts, List.append_assoc,
      Nat.add_assoc]

/-- Each line gives its item under a number that counts the lines of text before it. -/
theorem readLines_eq (n : Nat) (ls : List (List UInt8)) :
    readLines n ls =
      ls.zipIdx.filterMap fun l => itemOf? (n + texts (ls.take l.2) + 1) l.1 := by
  induction ls using List.reverseRecOn with
  | nil => rfl
  | append_singleton ls l ih =>
    have hbefore : ∀ k ∈ ls.zipIdx, itemOf? (n + texts ((ls ++ [l]).take k.2) + 1) k.1 =
        itemOf? (n + texts (ls.take k.2) + 1) k.1 := by
      intro k hk
      have hlt := (List.getElem?_eq_some_iff.mp (List.mem_zipIdx_iff_getElem?.mp hk)).1
      rw [List.take_append_of_le_length (Nat.le_of_lt hlt)]
    rw [readLines_append, readLines_step, ih, List.zipIdx_append, List.filterMap_append,
      List.filterMap_congr hbefore]
    refine congrArg _ ?_
    show (itemOf? _ l).toList ++ [] = [(l, 0 + ls.length)].filterMap _
    rw [List.append_nil, List.filterMap_cons, Nat.zero_add, List.take_left]
    cases itemOf? (n + texts ls + 1) l with
    | none => rfl
    | some item => rfl

/-- The number of a line is the one it has among all lines if these are text up to it. -/
theorem texts_eq_length_iff (ls : List (List UInt8)) :
    texts ls = ls.length ↔ ∀ l ∈ ls, isText l = true :=
  List.countP_eq_length

/-! ## Histories -/

/-- A line gives its item, and whole lines before it and whatever is behind it give what they give
as histories of their own, the latter with numbers that go on. -/
theorem read_at {before line : List UInt8} (hbefore : Whole before) (hline : 10 ∉ line)
    (after : List UInt8) :
    read (before ++ (line ++ 10 :: after)) =
      read before ++ (itemOf? (texts (lines before) + 1) (dropReturn line)).toList ++
        (read after).map (behind (texts (lines before) + texts [line])) := by
  have htexts : texts [dropReturn line] = texts [line] := by
    simp only [texts, List.countP_singleton, isText_dropReturn]
  unfold read
  rw [lines_append hbefore, lines_feed hline, readLines_append, readLines_step, htexts,
    Nat.zero_add, List.append_assoc, ← readLines_add]
  rfl

/-- What a line of a history gives depends on its bytes and on how many lines of text stand before
it. This many and one is the number that an error shows: the number of the line among all lines if
and only if these are text up to it. Bytes that are not text, put in place of a line, give one error
there. Before it nothing changes, and behind it nothing but the numbers, which are lower by one if
the line was text. -/
theorem read_line_by_line (bs : List UInt8) :
    read bs = (lines bs).zipIdx.filterMap
        (fun l => itemOf? (texts ((lines bs).take l.2) + 1) l.1) ∧
    (∀ i ≤ (lines bs).length,
      texts ((lines bs).take i) = i ↔ ∀ l ∈ (lines bs).take i, isText l = true) ∧
    ∀ before line line' after, bs = before ++ (line ++ 10 :: after) → Whole before → 10 ∉ line →
      10 ∉ line' → isText line' = false →
        read bs = read before ++ (itemOf? (texts (lines before) + 1) (dropReturn line)).toList ++
          (read after).map (behind (texts (lines before) + texts [line])) ∧
        read (before ++ (line' ++ 10 :: after)) =
          read before ++ [.error .notUtf8] ++ (read after).map (behind (texts (lines before))) := by
  refine ⟨?_, fun i hi => ?_, ?_⟩
  · have hread := readLines_eq 0 (lines bs)
    simp only [Nat.zero_add] at hread
    exact hread
  · rw [← texts_eq_length_iff, List.length_take_of_le hi]
  · intro before line line' after hbs hbefore hline hline' htext
    have hnone : texts [line'] = 0 := by simp [texts, htext]
    refine ⟨hbs ▸ read_at hbefore hline after, ?_⟩
    rw [read_at hbefore hline' after, itemOf?_of_not_isText (by rw [isText_dropReturn, htext]),
      hnone]
    rfl

/-- A history of one line. -/
theorem lines_single {l : List UInt8} (hl : 10 ∉ l) : lines (l ++ [10]) = [dropReturn l] := by
  rw [lines_feed hl, lines_nil]

/-- Behind a blank line a line is replaced by a byte that is no text. The line behind it was the
third, and is still read as one that is no revision, but now shown as the second. -/
theorem read_line_by_line_undecodable :
    Whole [10] ∧ isText [255] = false ∧
    read [10, 120, 10, 121, 10] =
      [.error (.badRecord 2 (.decode .malformed)), .error (.badRecord 3 (.decode .malformed))] ∧
    read [10, 255, 10, 121, 10] =
      [.error .notUtf8, .error (.badRecord 2 (.decode .malformed))] := by
  have hwhole : Whole [10] := Or.inr rfl
  have htext : isText [255] = false := by decide +kernel
  obtain ⟨-, -, hreplaced⟩ := read_line_by_line [10, 120, 10, 121, 10]
  obtain ⟨hread, hread'⟩ :=
    hreplaced [10] [120] [255] [121, 10] rfl hwhole (by decide) (by decide) htext
  have hblank : lines [10] = [[]] := lines_single List.not_mem_nil
  have hlast : lines [121, 10] = [[121]] := lines_single (l := [121]) (by decide)
  have hbefore : read [10] = [] := by
    rw [read, hblank]
    rfl
  have hafter : read [121, 10] = [.error (.badRecord 1 (.decode .malformed))] := by
    rw [read, hlast]
    rfl
  rw [hbefore, hblank, hafter] at hread hread'
  exact ⟨hwhole, htext, hread, hread'⟩

/-- What the second line gives is not told by its bytes and its place: it is shown as the first if
the line before it is no text. -/
theorem number_skips_undecodable :
    lines [120, 10, 120, 10] = [[120], [120]] ∧ lines [255, 10, 120, 10] = [[255], [120]] ∧
    read [120, 10, 120, 10] =
      [.error (.badRecord 1 (.decode .malformed)), .error (.badRecord 2 (.decode .malformed))] ∧
    read [255, 10, 120, 10] = [.error .notUtf8, .error (.badRecord 1 (.decode .malformed))] := by
  have hlast : lines [120, 10] = [[120]] := lines_single (l := [120]) (by decide)
  have htext : lines [120, 10, 120, 10] = [[120], [120]] :=
    (lines_feed (l := [120]) (by decide) _).trans (congrArg _ hlast)
  have hbytes : lines [255, 10, 120, 10] = [[255], [120]] :=
    (lines_feed (l := [255]) (by decide) _).trans (congrArg _ hlast)
  refine ⟨htext, hbytes, ?_, ?_⟩
  · rw [read, htext]
    rfl
  · rw [read, hbytes]
    rfl

end History

end Cochange
