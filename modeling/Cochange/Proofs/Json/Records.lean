import Cochange.Decode
import Cochange.Proofs.Json.Tokens
import Mathlib.Data.List.Nodup

/-!
# Records read back

How a record is taken from the object that was written for it. The fields stand there in the order
of their declaration, all of them once, so each is set in turn (`record_ofFields`). A tagged record
has its tag in front (`split_ofFields`); it is taken in as a whole first, for which it must not
nest too deeply. How deeply a value nests is its `nesting`, and a value made of texts can be read
and kept as long as that is allowed (`Textual.isReadable`).
-/

namespace Cochange

namespace Json

/-! ## Nesting -/

mutual

/-- How many levels of arrays and objects a value has. -/
def nesting : Json → Nat
  | array items => 1 + itemsNesting items
  | object fields => 1 + fieldsNesting fields
  | _ => 0

/-- How many levels the deepest of some items has. -/
def itemsNesting : List Json → Nat
  | [] => 0
  | v :: vs => max v.nesting (itemsNesting vs)

/-- How many levels the deepest of some fields has. -/
def fieldsNesting : List (Literal × Json) → Nat
  | [] => 0
  | f :: fs => max f.2.nesting (fieldsNesting fs)

end

theorem itemsNesting_le_iff {items : List Json} {depth : Nat} :
    itemsNesting items ≤ depth ↔ ∀ v ∈ items, v.nesting ≤ depth := by
  induction items with
  | nil => simp [itemsNesting]
  | cons v vs ih => rw [itemsNesting, Nat.max_le, ih, List.forall_mem_cons]

theorem fieldsNesting_le_iff {fields : List (Literal × Json)} {depth : Nat} :
    fieldsNesting fields ≤ depth ↔ ∀ f ∈ fields, f.2.nesting ≤ depth := by
  induction fields with
  | nil => simp [fieldsNesting]
  | cons f fs ih => rw [fieldsNesting, Nat.max_le, ih, List.forall_mem_cons]

/-- An array fits a depth when each of its items fits one less. -/
theorem nesting_array_le_iff {items : List Json} {depth : Nat} :
    (array items).nesting ≤ depth + 1 ↔ ∀ v ∈ items, v.nesting ≤ depth := by
  rw [nesting, Nat.add_comm, Nat.succ_le_succ_iff, itemsNesting_le_iff]

/-- An object fits a depth when each of its values fits one less. -/
theorem nesting_ofFields_le_iff {fields : List (String × Json)} {depth : Nat} :
    (ofFields fields).nesting ≤ depth + 1 ↔ ∀ f ∈ fields, f.2.nesting ≤ depth := by
  rw [ofFields, nesting, Nat.add_comm, Nat.succ_le_succ_iff, fieldsNesting_le_iff]
  exact List.forall_mem_map

theorem nesting_le_of_mem_array {items : List Json} {depth : Nat}
    (h : (array items).nesting ≤ depth) : ∀ v ∈ items, v.nesting ≤ depth := by
  rw [nesting] at h
  exact itemsNesting_le_iff.mp (by omega)

theorem nesting_array_pos (items : List Json) : 0 < (array items).nesting := by
  rw [nesting]
  omega

theorem nesting_ofFields_pos (fields : List (String × Json)) : 0 < (ofFields fields).nesting := by
  rw [ofFields, nesting]
  omega

theorem allReadable_iff {items : List Json} {depth : Nat} :
    allReadable depth items = true ↔ ∀ v ∈ items, v.isReadable depth = true := by
  induction items with
  | nil => simp [allReadable]
  | cons v vs ih => rw [allReadable, Bool.and_eq_true, ih, List.forall_mem_cons]

theorem fieldsReadable_iff {fields : List (Literal × Json)} {depth : Nat} :
    fieldsReadable depth fields = true ↔
      ∀ f ∈ fields, f.1 ≠ .unpaired ∧ f.2.isReadable depth = true := by
  induction fields with
  | nil => simp [fieldsReadable]
  | cons f fs ih =>
    rw [fieldsReadable, Bool.and_eq_true, Bool.and_eq_true, ih, List.forall_mem_cons,
      decide_eq_true_eq]

/-- Of values made of texts only those that nest too deeply cannot be kept. -/
theorem Textual.isReadable {v : Json} (hv : Textual v) : ∀ {depth : Nat}, v.nesting ≤ depth →
    v.isReadable depth = true := by
  induction hv with
  | text s =>
    intro depth _
    have hpaired : Literal.text s ≠ .unpaired := by simp
    exact decide_eq_true hpaired
  | @array items h ih =>
    intro depth hdepth
    obtain ⟨d, rfl⟩ : ∃ d, depth = d + 1 :=
      Nat.exists_eq_add_one.mpr (Nat.lt_of_lt_of_le (nesting_array_pos items) hdepth)
    rw [nesting_array_le_iff] at hdepth
    rw [Json.isReadable, Bool.and_eq_true, Nat.add_sub_cancel, allReadable_iff]
    exact ⟨decide_eq_true (Nat.succ_pos d), fun v hv => ih v hv (hdepth v hv)⟩
  | @fields fields h ih =>
    intro depth hdepth
    obtain ⟨d, rfl⟩ : ∃ d, depth = d + 1 :=
      Nat.exists_eq_add_one.mpr (Nat.lt_of_lt_of_le (nesting_ofFields_pos fields) hdepth)
    rw [nesting_ofFields_le_iff] at hdepth
    rw [ofFields, Json.isReadable, Bool.and_eq_true, Nat.add_sub_cancel, fieldsReadable_iff]
    refine ⟨decide_eq_true (Nat.succ_pos d), fun f hf => ?_⟩
    obtain ⟨g, hg, rfl⟩ := List.mem_map.mp hf
    exact ⟨by simp, ih g hg (hdepth g hg)⟩

end Json

namespace Decode

open Json (Literal ofFields ofString ofStrings)

/-! ## Lists -/

/-- A list is read back when each of its items is. -/
theorem mapM_map {α : Type} {item : Json → Result α} {f : α → Json} {as : List α}
    (h : ∀ a ∈ as, item (f a) = .ok a) : (as.map f).mapM item = .ok as := by
  induction as with
  | nil => rfl
  | cons a as ih =>
    rw [List.map_cons, List.mapM_cons, h a List.mem_cons_self,
      ih fun b hb => h b (List.mem_cons_of_mem a hb)]
    rfl

theorem list_ofStrings (ss : List String) : list text (ofStrings ss) = .ok ss :=
  mapM_map fun _ _ => rfl

/-! ## Records -/

/-- No field is declared twice, and what is required is a field. -/
structure Shape.Sound {σ : Type} (shape : Shape σ) : Prop where
  nodup : shape.fields.Nodup
  required : ∀ name ∈ shape.required, name ∈ shape.fields

/-- Setting some fields in turn leads from one state of a record to another. -/
inductive Fills {σ : Type} (shape : Shape σ) : σ → List (String × Json) → σ → Prop
  | nil (s : σ) : Fills shape s [] s
  | cons {s s₁ s' : σ} {name : String} {v : Json} {fields : List (String × Json)}
      (hset : shape.set s name v = .ok s₁) (hrest : Fills shape s₁ fields s') :
      Fills shape s ((name, v) :: fields) s'

/-- Fields that are known, none of them given twice, are all set. -/
theorem Fills.throughFields {σ : Type} {shape : Shape σ} {s s' : σ}
    {fields : List (String × Json)} (h : Fills shape s fields s') : ∀ given : List String,
    (∀ f ∈ fields, f.1 ∈ shape.fields) → (fields.map (·.1)).Nodup →
    (∀ f ∈ fields, f.1 ∉ given) →
    throughFields shape given s (fields.map fun f => (Literal.text f.1, f.2)) =
      .ok ((fields.map (·.1)).reverse ++ given, s') := by
  induction h with
  | nil s => exact fun _ _ _ _ => rfl
  | @cons s s₁ s' name v fields hset hrest ih =>
    intro given hknown hnodup hnew
    rw [List.forall_mem_cons] at hknown hnew
    rw [List.map_cons, List.nodup_cons] at hnodup
    have hnew' : ∀ f ∈ fields, f.1 ∉ name :: given := by
      intro f hf hmem
      rcases List.mem_cons.mp hmem with he | hmem
      · exact hnodup.1 (List.mem_map.mpr ⟨f, hf, he⟩)
      · exact hnew.2 f hf hmem
    rw [List.map_cons, Decode.throughFields, if_pos hknown.1, if_neg hnew.1, hset]
    dsimp only
    rw [ih (name :: given) hknown.2 hnodup.2 hnew', List.map_cons, List.reverse_cons,
      List.append_assoc, List.singleton_append]

/-- A record from an object with its fields in their order. -/
theorem record_ofFields {σ : Type} {shape : Shape σ} (hshape : shape.Sound)
    {fields : List (String × Json)} (hnames : fields.map (·.1) = shape.fields) {s : σ}
    (hfills : Fills shape shape.start fields s) : record shape (ofFields fields) = .ok s := by
  have hthrough := hfills.throughFields [] (fun f hf => hnames ▸ List.mem_map_of_mem hf)
    (hnames ▸ hshape.nodup) (fun f _ => List.not_mem_nil)
  have hgiven : shape.required.find? (· ∉ (fields.map (·.1)).reverse ++ []) = none := by
    rw [List.find?_eq_none]
    intro name hname
    rw [decide_eq_true_eq, not_not, List.append_nil, List.mem_reverse, hnames]
    exact hshape.required name hname
  rw [ofFields, record, hthrough]
  dsimp only
  rw [hgiven]

/-! ## Tagged records -/

variable {α : Type} {t : Tagging α} {a : α}

/-- The tag is split off whatever fields follow it. -/
theorem splitFields_map {fields : List (String × Json)}
    (hfields : ∀ f ∈ fields, f.1 ≠ t.tag ∧ f.2.isReadable t.depth = true) :
    t.splitFields (some a) (fields.map fun f => (Literal.text f.1, f.2)) =
      .ok (a, fields.map fun f => (Literal.text f.1, f.2)) := by
  induction fields with
  | nil => rfl
  | cons f fs ih =>
    obtain ⟨htag, hreadable⟩ := hfields f List.mem_cons_self
    rw [List.map_cons, Tagging.splitFields, if_neg htag, if_pos hreadable,
      ih fun g hg => hfields g (List.mem_cons_of_mem f hg)]

/-- A tagged record from an object that has the tag in front. -/
theorem split_ofFields {name : String} {fields : List (String × Json)}
    (hname : t.variants.lookup name = some a)
    (hfields : ∀ f ∈ fields, f.1 ≠ t.tag ∧ f.2.isReadable t.depth = true) :
    t.split (ofFields ((t.tag, ofString name) :: fields)) = .ok (a, ofFields fields) := by
  have hvariant : t.variant (ofString name) = .ok a := by
    rw [ofString, Tagging.variant, hname]
  rw [ofFields, List.map_cons, Tagging.split, Tagging.splitFields, if_pos rfl, hvariant]
  dsimp only
  rw [splitFields_map hfields]
  rfl

end Decode

end Cochange
