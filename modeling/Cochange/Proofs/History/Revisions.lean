import Cochange.Proofs.History.Nodes
import Cochange.Proofs.Instant.Reading
import Cochange.Revision.Json

/-!
# Revisions read back

An edit is what is read from the object written for it (`Edit.decode_toJson`), and so is a
revision (`Revision.decode_toJson`). The edits of a revision stand two levels down in its object,
so that theirs may nest three levels less than the revision's, the edit itself counted.
-/

namespace Cochange

open Json (Textual ofFields ofString)

/-- The text of an id is read back as that id. -/
theorem Decode.id_ofString (x : QualifiedId) : Decode.id (ofString x.text) = .ok x := by
  have htext : text (ofString x.text) = .ok x.text := rfl
  rw [Decode.id, htext]
  dsimp only
  rw [QualifiedId.parse, QualifiedId.parse?_text]

namespace Edit

/-- The type of an edit and the word for it. -/
def type : Edit → Kind × String
  | addNode .. => (.add, "addNode")
  | removeNode _ => (.remove, "removeNode")
  | editEntity _ => (.edit, "editEntity")

/-- The fields that are written of an edit behind its type. -/
def fields : Edit → List (String × Json)
  | addNode id node => [("id", ofString id.text), ("node", node.toJson)]
  | removeNode id => [("id", ofString id.text)]
  | editEntity id => [("id", ofString id.text)]

/-- An edit is written as its tag, followed by the fields of its kind. -/
theorem toJson_eq (e : Edit) : e.toJson = ofFields (("type", ofString e.type.2) :: e.fields) := by
  cases e <;> rfl

/-- An edit's own fields are not named as the tag, and spell what can be read back. -/
theorem textual_fields (e : Edit) : ∀ f ∈ e.fields, f.1 ≠ "type" ∧ Textual f.2 := by
  cases e with
  | addNode id node =>
    simp only [fields, List.forall_mem_cons]
    exact ⟨⟨by decide, .text _⟩, ⟨by decide, node.textual_toJson⟩, List.forall_mem_nil _⟩
  | removeNode id =>
    simp only [fields, List.forall_mem_cons]
    exact ⟨⟨by decide, .text _⟩, List.forall_mem_nil _⟩
  | editEntity id =>
    simp only [fields, List.forall_mem_cons]
    exact ⟨⟨by decide, .text _⟩, List.forall_mem_nil _⟩

/-- An edit is written with strings, arrays and objects only. -/
theorem textual_toJson (e : Edit) : Textual e.toJson := by
  rw [toJson_eq]
  exact .fields (List.forall_mem_cons.mpr ⟨.text _, fun f hf => (e.textual_fields f hf).2⟩)

/-- The type of an edit is found in front of its fields. -/
theorem split_toJson {e : Edit} {depth : Nat} (hdepth : e.toJson.nesting ≤ depth + 1) :
    (tagging depth).split e.toJson = .ok (e.type.1, ofFields e.fields) := by
  have hname : (tagging depth).variants.lookup e.type.2 = some e.type.1 := by
    cases e <;> rfl
  rw [toJson_eq, Json.nesting_ofFields_le_iff, List.forall_mem_cons] at hdepth
  have hfields : ∀ f ∈ e.fields, f.1 ≠ (tagging depth).tag ∧ f.2.isReadable depth = true := by
    intro f hf
    have hf' := e.textual_fields f hf
    exact ⟨hf'.1, hf'.2.isReadable (hdepth.2 f hf)⟩
  rw [toJson_eq]
  exact Decode.split_ofFields hname hfields

theorem idShape_set_id (s : Option QualifiedId) (v : Json) :
    idShape.set s "id" v = (Decode.id v).map some := rfl

/-- The shape of an edit that only names a node, filled. -/
theorem record_idShape (id : QualifiedId) :
    Decode.record idShape (ofFields [("id", ofString id.text)]) = .ok (some id) := by
  have hsound : idShape.Sound := ⟨by simp [idShape], by simp [idShape]⟩
  have hset : idShape.set none "id" (ofString id.text) = .ok (some id) := by
    rw [idShape_set_id, Decode.id_ofString]
    rfl
  exact Decode.record_ofFields hsound rfl (.cons hset (.nil _))

theorem nodeShape_set_id (depth : Nat) (s : Option QualifiedId × Option SourceNode) (v : Json) :
    (nodeShape depth).set s "id" v = (Decode.id v).map fun x => (some x, s.2) := rfl

theorem nodeShape_set_node (depth : Nat) (s : Option QualifiedId × Option SourceNode) (v : Json) :
    (nodeShape depth).set s "node" v =
      (SourceNode.decode depth true v).map fun n => (s.1, some n) := rfl

/-- The shape of an edit that adds a node, filled. -/
theorem record_nodeShape (id : QualifiedId) {node : SourceNode} {depth : Nat}
    (hdepth : node.toJson.nesting ≤ depth) :
    Decode.record (nodeShape depth) (ofFields [("id", ofString id.text), ("node", node.toJson)]) =
      .ok (some id, some node) := by
  have hsound : (nodeShape depth).Sound := ⟨by simp [nodeShape], by simp [nodeShape]⟩
  have hid : (nodeShape depth).set (none, none) "id" (ofString id.text) = .ok (some id, none) := by
    rw [nodeShape_set_id, Decode.id_ofString]
    rfl
  have hnode : (nodeShape depth).set (some id, none) "node" node.toJson =
      .ok (some id, some node) := by
    rw [nodeShape_set_node, node.decode_toJson true hdepth]
    rfl
  exact Decode.record_ofFields hsound rfl (.cons hid (.cons hnode (.nil _)))

/-- An edit is read back from the object written for it. -/
theorem decode_toJson {e : Edit} {depth : Nat} (hdepth : e.toJson.nesting ≤ depth + 1) :
    decode depth e.toJson = .ok e := by
  rw [decode, split_toJson hdepth]
  cases e with
  | addNode id node =>
    rw [toJson_eq, Json.nesting_ofFields_le_iff] at hdepth
    have hnode := hdepth ("node", node.toJson) (by simp [fields])
    dsimp only [type, fields]
    rw [record_nodeShape id hnode]
  | removeNode id =>
    dsimp only [type, fields]
    rw [record_idShape]
  | editEntity id =>
    dsimp only [type, fields]
    rw [record_idShape]

end Edit

namespace Revision

theorem textual_toJson (r : Revision) : Textual r.toJson := by
  refine .fields ?_
  simp only [List.forall_mem_cons]
  refine ⟨.text _, .text _, .text _, .array fun v hv => ?_, List.forall_mem_nil _⟩
  obtain ⟨e, -, rfl⟩ := List.mem_map.mp hv
  exact e.textual_toJson

/-- A revision's fields are declared once each, and those required are among them. -/
theorem sound_shape : shape.Sound :=
  ⟨by simp [shape], by simp [shape]⟩

/-- An instant of a four-digit year is written with its offset zero and read back. -/
theorem instant_ofString {t : Instant} (h0 : 0 ≤ t.date.year) (h9 : t.date.year ≤ 9999) :
    instant (ofString t.text) = .ok t := by
  have htext : Decode.text (ofString t.text) = .ok t.text := rfl
  rw [instant, htext]
  dsimp only
  rw [Instant.parse?_text t h0 h9]

theorem shape_set_date (s : Fields) (v : Json) :
    shape.set s "date" v = (instant v).map fun t => { s with date := some t } := rfl

/-- A revision is read back from the object written for it. -/
theorem decode_toJson {r : Revision} (h0 : 0 ≤ r.date.date.year) (h9 : r.date.date.year ≤ 9999)
    (hdepth : r.toJson.nesting ≤ Json.maxDepth) : decode r.toJson = .ok r := by
  have hedits : Decode.list (Edit.decode (Json.maxDepth - 3))
      (.array (r.edits.map (·.toJson))) = .ok r.edits := by
    refine Decode.mapM_map fun e he => Edit.decode_toJson ?_
    have hfields : r.toJson.nesting ≤ 126 + 1 := hdepth
    rw [toJson, Json.nesting_ofFields_le_iff] at hfields
    have harray : (Json.array (r.edits.map (·.toJson))).nesting ≤ 125 + 1 :=
      hfields ("edits", .array (r.edits.map (·.toJson))) (by simp)
    exact Json.nesting_array_le_iff.mp harray _ (List.mem_map_of_mem he)
  have hdate : shape.set { id := r.id } "date" (ofString r.date.text) =
      .ok { id := r.id, date := some r.date } := by
    rw [shape_set_date, instant_ofString h0 h9]
    rfl
  have hfills : Decode.Fills shape {}
      [("id", ofString r.id), ("date", ofString r.date.text), ("author", ofString r.author),
        ("edits", .array (r.edits.map (·.toJson)))]
      ⟨r.id, some r.date, r.author, r.edits⟩ :=
    .cons rfl <| .cons hdate <| .cons rfl <| .cons (congrArg (Except.map _) hedits) (.nil _)
  rw [decode, toJson, Decode.record_ofFields sound_shape rfl hfills]

end Revision

end Cochange
