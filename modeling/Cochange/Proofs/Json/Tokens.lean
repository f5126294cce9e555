import Cochange.Json.Parser
import Cochange.Proofs.Json.Literals

/-!
# The tokens of written values

A written value is cut into the tokens one expects (`tokens`). That a text spells some tokens says
this with any text behind it (`Spells`), so that spelled texts can be put together
(`Spells.append`): punctuation and literals are spelled by themselves, arrays and objects by their
parts and the commas between them.

Only values made of texts are looked at (`Textual`); records written as such have no numbers.

Main result: `scan_written`, the tokens of the text are those of the value.
-/

namespace Cochange.Json

/-- Values made of texts: texts, and arrays and objects of such values. -/
inductive Textual : Json → Prop
  | text (s : String) : Textual (ofString s)
  | array {items : List Json} (h : ∀ v ∈ items, Textual v) : Textual (array items)
  | fields {fields : List (String × Json)} (h : ∀ f ∈ fields, Textual f.2) :
      Textual (ofFields fields)

theorem textual_ofStrings (ss : List String) : Textual (ofStrings ss) := by
  refine .array fun v hv => ?_
  obtain ⟨s, -, rfl⟩ := List.mem_map.mp hv
  exact .text s

/-! ## Tokens of a value -/

/-- Runs of tokens with a comma between any two neighbours. -/
def commaTokens : List (List Token) → List Token
  | [] => []
  | t :: ts => t ++ ts.flatMap (.comma :: ·)

mutual

/-- The tokens of a value. -/
def tokens : Json → List Token
  | string s => [.literal s]
  | array items => .openArray :: commaTokens (itemsTokens items) ++ [.closeArray]
  | object fields => .openObject :: commaTokens (fieldsTokens fields) ++ [.closeObject]
  | v => [.scalar v]

/-- The tokens of the items. -/
def itemsTokens : List Json → List (List Token)
  | [] => []
  | v :: vs => v.tokens :: itemsTokens vs

/-- The tokens of the fields. -/
def fieldsTokens : List (Literal × Json) → List (List Token)
  | [] => []
  | f :: fs => (.literal f.1 :: .colon :: f.2.tokens) :: fieldsTokens fs

end

theorem itemsTokens_eq_map (vs : List Json) : itemsTokens vs = vs.map tokens := by
  induction vs with
  | nil => rfl
  | cons v vs ih => rw [itemsTokens, ih, List.map_cons]

theorem fieldsTokens_eq_map (fs : List (Literal × Json)) :
    fieldsTokens fs = fs.map fun f => .literal f.1 :: .colon :: f.2.tokens := by
  induction fs with
  | nil => rfl
  | cons f fs ih => rw [fieldsTokens, ih, List.map_cons]

theorem itemsWritten_eq_map (vs : List Json) : itemsWritten vs = vs.map written := by
  induction vs with
  | nil => rfl
  | cons v vs ih => rw [itemsWritten, ih, List.map_cons]

theorem fieldsWritten_eq_map (fs : List (Literal × Json)) :
    fieldsWritten fs = fs.map fun f => f.1.written ++ ':' :: f.2.written := by
  induction fs with
  | nil => rfl
  | cons f fs ih => rw [fieldsWritten, ih, List.map_cons]

theorem commaSeparated_cons (t : List Char) (ts : List (List Char)) :
    commaSeparated (t :: ts) = t ++ ts.flatMap (',' :: ·) := by
  induction ts generalizing t with
  | nil => rw [commaSeparated, List.flatMap_nil, List.append_nil]
  | cons u ts ih => rw [commaSeparated, ih, List.flatMap_cons, List.cons_append]

/-! ## Spelling -/

open Token (scanWithin next)

/-- A text is cut into these tokens, whatever stands behind it. -/
structure Spells (cs : List Char) (ts : List Token) : Prop where
  scan : ∀ (rest : List Char) (fuel : Nat),
    scanWithin (ts.length + fuel) (cs ++ rest) = ts ++ scanWithin fuel rest
  length_le : ts.length ≤ cs.length

namespace Spells

variable {cs cs' : List Char} {ts ts' : List Token}

theorem nil : Spells [] [] where
  scan rest fuel := by rw [List.length_nil, Nat.zero_add, List.nil_append, List.nil_append]
  length_le := Nat.le_refl 0

/-- Texts one behind the other spell their tokens one behind the other. -/
theorem append (h : Spells cs ts) (h' : Spells cs' ts') : Spells (cs ++ cs') (ts ++ ts') where
  scan rest fuel := by
    rw [List.length_append, List.append_assoc, List.append_assoc, Nat.add_assoc, h.scan, h'.scan]
  length_le := by
    rw [List.length_append, List.length_append]
    exact Nat.add_le_add h.length_le h'.length_le

/-- A single token that begins with a character other than white space. -/
theorem token {c : Char} {t : Token} (hc : Token.isBetween c = false) (ht : t ≠ .fault)
    (hnext : ∀ rest, next (c :: cs ++ rest) = (t, rest)) : Spells (c :: cs) [t] where
  scan rest fuel := by
    have hdrop : (c :: cs ++ rest).dropWhile Token.isBetween = c :: (cs ++ rest) :=
      List.dropWhile_cons_of_neg (by rw [hc]; decide)
    have hn : next (c :: (cs ++ rest)) = (t, rest) := hnext rest
    rw [List.length_singleton, Nat.add_comm 1 fuel, scanWithin, hdrop]
    dsimp only
    rw [hn]
    cases t with
    | fault => exact absurd rfl ht
    | _ => rfl
  length_le := Nat.succ_le_succ (Nat.zero_le _)

theorem openArray : Spells ['['] [.openArray] :=
  token (by decide) (by simp) fun _ => rfl

theorem closeArray : Spells [']'] [.closeArray] :=
  token (by decide) (by simp) fun _ => rfl

theorem openObject : Spells ['{'] [.openObject] :=
  token (by decide) (by simp) fun _ => rfl

theorem closeObject : Spells ['}'] [.closeObject] :=
  token (by decide) (by simp) fun _ => rfl

theorem comma : Spells [','] [.comma] :=
  token (by decide) (by simp) fun _ => rfl

theorem colon : Spells [':'] [.colon] :=
  token (by decide) (by simp) fun _ => rfl

/-- A written string is one token, whatever characters it holds. -/
theorem literal (s : String) : Spells (Literal.text s).written [.literal (.text s)] := by
  refine token (by decide) (by simp) fun rest => ?_
  show next ('"' :: (s.toList.flatMap escape ++ ['"'] ++ rest)) = _
  rw [List.append_assoc, List.singleton_append, next, Token.scanLiteral_written]
  dsimp only
  rw [String.ofList_toList]

/-- Parts with commas between them. -/
theorem commaSeparated {α : Type} {l : List α} {f : α → List Char} {g : α → List Token}
    (h : ∀ a ∈ l, Spells (f a) (g a)) :
    Spells (commaSeparated (l.map f)) (commaTokens (l.map g)) := by
  have hmore : ∀ {l : List α}, (∀ a ∈ l, Spells (f a) (g a)) →
      Spells ((l.map f).flatMap (',' :: ·)) ((l.map g).flatMap (.comma :: ·)) := by
    intro l
    induction l with
    | nil => exact fun _ => nil
    | cons a l ih =>
      intro h
      rw [List.map_cons, List.map_cons, List.flatMap_cons, List.flatMap_cons]
      exact (comma.append (h a List.mem_cons_self)).append
        (ih fun b hb => h b (List.mem_cons_of_mem a hb))
  cases l with
  | nil => exact nil
  | cons a l =>
    rw [List.map_cons, List.map_cons, commaSeparated_cons, commaTokens]
    exact (h a List.mem_cons_self).append (hmore fun b hb => h b (List.mem_cons_of_mem a hb))

/-- The tokens a text spells are those the scanner finds. -/
theorem scan_eq (h : Spells cs ts) : Token.scan cs = ts := by
  have hlen := h.length_le
  have hscan := h.scan [] (cs.length + 1 - ts.length)
  have hfuel : ts.length + (cs.length + 1 - ts.length) = cs.length + 1 := by omega
  have hend : ∀ fuel, scanWithin fuel [] = [] := by
    intro fuel
    cases fuel <;> rfl
  rw [hfuel, hend, List.append_nil, List.append_nil] at hscan
  exact hscan

end Spells

/-- A written value spells its tokens. -/
theorem Textual.spells {v : Json} (hv : Textual v) : Spells v.written v.tokens := by
  induction hv with
  | text s =>
    rw [ofString, written, tokens]
    exact .literal s
  | @array items h ih =>
    rw [written, tokens, itemsWritten_eq_map, itemsTokens_eq_map]
    exact (Spells.openArray.append (Spells.commaSeparated ih)).append .closeArray
  | @fields fields h ih =>
    have hfields : ∀ f ∈ fields.map fun f => (Literal.text f.1, f.2),
        Spells (f.1.written ++ ':' :: f.2.written)
          (Token.literal f.1 :: .colon :: f.2.tokens) := by
      intro f hf
      obtain ⟨g, hg, rfl⟩ := List.mem_map.mp hf
      exact (Spells.literal g.1).append (Spells.colon.append (ih g hg))
    rw [ofFields, written, tokens, fieldsWritten_eq_map, fieldsTokens_eq_map]
    exact (Spells.openObject.append (Spells.commaSeparated hfields)).append .closeObject

/-- Scanning a written value gives its tokens. -/
theorem scan_written {v : Json} (hv : Textual v) : Token.scan v.written = v.tokens :=
  hv.spells.scan_eq

end Cochange.Json
