import Cochange.Proofs.Json.Tokens

/-!
# Written values read back

The machine that reads JSON goes over the tokens of a value as one step: wherever it waits for a
value it takes all of them and has the value finished (`ReadsBack`). The induction follows the
value; within an array or object it follows the items or fields behind those that are done.

Main result: `ofString_render` — a value made of texts is what its written form is read as, and
nothing is left of the text.
-/

namespace Cochange.Json

/-- How the machine goes on when a value is finished inside these frames. -/
def resume (v : Json) : List Frame → List Token → Document
  | [], ts => ⟨v, !ts.isEmpty⟩
  | frame :: stack, ts => run (frame.deliver v :: stack) .commaOrEnd ts

variable {stack outer : List Frame} {expect expect' : Expect} {t : Token} {ts : List Token}

/-- A token with which the machine goes on. -/
theorem run_of_goOn (h : move stack expect t = .goOn outer expect') :
    run stack expect (t :: ts) = run outer expect' ts := by
  rw [run, h]

/-- A token that finishes a value. -/
theorem run_of_give {v : Json} (h : move stack expect t = give v outer) :
    run stack expect (t :: ts) = resume v outer ts := by
  rw [run, h]
  cases outer <;> rfl

/-- Where the machine waits for a value, it takes the tokens of this one as one step. -/
def ReadsBack (v : Json) : Prop :=
  ∀ (expect : Expect) (stack : List Frame) (ts : List Token),
    expect = .value ∨ expect = .valueOrEnd → run stack expect (v.tokens ++ ts) = resume v stack ts

/-- The items behind those that are done, and the end of the array. -/
theorem run_items (stack : List Frame) (ts : List Token) {items : List Json}
    (hitems : ∀ v ∈ items, ReadsBack v) : ∀ done : List Json,
    run (.items done :: stack) .commaOrEnd
        ((items.map tokens).flatMap (.comma :: ·) ++ .closeArray :: ts) =
      resume (array (done.reverse ++ items)) stack ts := by
  induction items with
  | nil =>
    intro done
    rw [List.append_nil]
    exact run_of_give rfl
  | cons v vs ih =>
    intro done
    rw [List.map_cons, List.flatMap_cons, List.append_assoc, List.cons_append, run_of_goOn rfl,
      hitems v List.mem_cons_self .value _ _ (Or.inl rfl)]
    show run (.items (v :: done) :: stack) .commaOrEnd _ = _
    rw [ih (fun w hw => hitems w (List.mem_cons_of_mem v hw)), List.reverse_cons,
      List.append_assoc, List.singleton_append]

theorem readsBack_array {items : List Json} (hitems : ∀ v ∈ items, ReadsBack v) :
    ReadsBack (array items) := by
  intro expect stack ts hexpect
  have hopen : move stack expect .openArray = .goOn (.items [] :: stack) .valueOrEnd := by
    rcases hexpect with rfl | rfl <;> rfl
  rw [tokens, itemsTokens_eq_map, List.append_assoc, List.cons_append, run_of_goOn hopen,
    List.singleton_append]
  cases items with
  | nil => exact run_of_give rfl
  | cons v vs =>
    rw [List.map_cons, commaTokens, List.append_assoc,
      hitems v List.mem_cons_self .valueOrEnd _ _ (Or.inr rfl)]
    exact run_items stack ts (fun w hw => hitems w (List.mem_cons_of_mem v hw)) [v]

/-- A field where the machine waits for one. -/
theorem run_field {v : Json} (hv : ReadsBack v) (key : Literal) (done : List (Literal × Json))
    (hexpect : expect = .key ∨ expect = .keyOrEnd) :
    run (.fields done :: stack) expect (.literal key :: .colon :: v.tokens ++ ts) =
      run (.fields ((key, v) :: done) :: stack) .commaOrEnd ts := by
  have hkey : move (.fields done :: stack) expect (.literal key) =
      .goOn (.value done key :: stack) .colon := by
    rcases hexpect with rfl | rfl <;> rfl
  rw [List.cons_append, List.cons_append, run_of_goOn hkey, run_of_goOn rfl,
    hv .value _ _ (Or.inl rfl)]
  rfl

/-- The fields behind those that are done, and the end of the object. -/
theorem run_fields (stack : List Frame) (ts : List Token) {fields : List (Literal × Json)}
    (hfields : ∀ f ∈ fields, ReadsBack f.2) : ∀ done : List (Literal × Json),
    run (.fields done :: stack) .commaOrEnd
        ((fields.map fun f => .literal f.1 :: .colon :: f.2.tokens).flatMap (.comma :: ·) ++
          .closeObject :: ts) =
      resume (object (done.reverse ++ fields)) stack ts := by
  induction fields with
  | nil =>
    intro done
    rw [List.append_nil]
    exact run_of_give rfl
  | cons f fs ih =>
    intro done
    rw [List.map_cons, List.flatMap_cons, List.append_assoc, List.cons_append, run_of_goOn rfl,
      run_field (hfields f List.mem_cons_self) f.1 done (Or.inl rfl),
      ih (fun g hg => hfields g (List.mem_cons_of_mem f hg)), List.reverse_cons,
      List.append_assoc, List.singleton_append]

theorem readsBack_object {fields : List (Literal × Json)} (hfields : ∀ f ∈ fields, ReadsBack f.2) :
    ReadsBack (object fields) := by
  intro expect stack ts hexpect
  have hopen : move stack expect .openObject = .goOn (.fields [] :: stack) .keyOrEnd := by
    rcases hexpect with rfl | rfl <;> rfl
  rw [tokens, fieldsTokens_eq_map, List.append_assoc, List.cons_append, run_of_goOn hopen,
    List.singleton_append]
  cases fields with
  | nil => exact run_of_give rfl
  | cons f fs =>
    rw [List.map_cons, commaTokens, List.append_assoc,
      run_field (hfields f List.mem_cons_self) f.1 [] (Or.inr rfl)]
    exact run_fields stack ts (fun g hg => hfields g (List.mem_cons_of_mem f hg)) [f]

/-- What is spelt with strings, arrays and objects is parsed back from its tokens. -/
theorem Textual.readsBack {v : Json} (hv : Textual v) : ReadsBack v := by
  induction hv with
  | text s =>
    intro expect stack ts hexpect
    rw [ofString, tokens, List.singleton_append]
    refine run_of_give ?_
    rcases hexpect with rfl | rfl <;> rfl
  | array _ ih => exact readsBack_array ih
  | fields _ ih =>
    refine readsBack_object fun f hf => ?_
    obtain ⟨g, hg, rfl⟩ := List.mem_map.mp hf
    exact ih g hg

/-- A value made of texts is what its written form is read as. -/
theorem ofString_render {v : Json} (hv : Textual v) :
    Document.ofString v.render = ⟨v, false⟩ := by
  have hrun := hv.readsBack .value [] [] (Or.inl rfl)
  rw [List.append_nil] at hrun
  rw [Document.ofString, render, String.toList_ofList, scan_written hv, hrun]
  rfl

end Cochange.Json
