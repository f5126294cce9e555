import Cochange.Proofs.Json.Records
import Cochange.Proofs.Sets
import Cochange.SourceNode.Json

/-!
# Source nodes read back

A source node is what is read from the object written for it (`decode_toJson`), if that object
does not nest too deeply. Kinds are told by their names, sets are made again from their members,
and the nodes below are read back in the same way, one level less deep.
-/

namespace Cochange.SourceNode

open Json (Textual ofFields ofString ofStrings)

/-- The fields that are written of a node behind its kind. -/
def fields : SourceNode → List (String × Json)
  | file path entities => [("path", ofString path), ("entities", .array (listToJson entities))]
  | type name supertypes modifiers members =>
    [("name", ofString name), ("supertypes", namesToJson supertypes),
      ("modifiers", namesToJson modifiers), ("members", .array (listToJson members))]
  | var name modifiers initializer =>
    [("name", ofString name), ("modifiers", namesToJson modifiers),
      ("initializer", ofStrings initializer)]
  | function signature parameters modifiers body =>
    [("signature", ofString signature), ("parameters", ofStrings parameters),
      ("modifiers", namesToJson modifiers), ("body", ofStrings body)]

/-- A node is written as its tag, followed by the fields of its kind. -/
theorem toJson_eq (n : SourceNode) :
    n.toJson = ofFields (("kind", ofString n.kind.name) :: n.fields) := by
  cases n <;> rw [toJson] <;> rfl

/-- No kind of node has a field named as the tag. -/
theorem kind_not_mem_fields (n : SourceNode) : ∀ f ∈ n.fields, f.1 ≠ "kind" := by
  cases n <;> simp [fields]

/-! ## What is written is made of texts -/

mutual

theorem textual_fields : ∀ n : SourceNode, ∀ f ∈ n.fields, Textual f.2
  | file path entities => by
    simp only [fields, List.forall_mem_cons]
    exact ⟨.text path, .array (textual_listToJson entities), List.forall_mem_nil _⟩
  | type name supertypes modifiers members => by
    simp only [fields, List.forall_mem_cons]
    exact ⟨.text name, Json.textual_ofStrings _, Json.textual_ofStrings _,
      .array (textual_listToJson members), List.forall_mem_nil _⟩
  | var name modifiers initializer => by
    simp only [fields, List.forall_mem_cons]
    exact ⟨.text name, Json.textual_ofStrings _, Json.textual_ofStrings _, List.forall_mem_nil _⟩
  | function signature parameters modifiers body => by
    simp only [fields, List.forall_mem_cons]
    exact ⟨.text signature, Json.textual_ofStrings _, Json.textual_ofStrings _,
      Json.textual_ofStrings _, List.forall_mem_nil _⟩

theorem textual_listToJson : ∀ ns : List SourceNode, ∀ v ∈ listToJson ns, Textual v
  | [], v, hv => absurd hv List.not_mem_nil
  | n :: ns, v, hv => by
    rcases List.mem_cons.mp hv with rfl | hv
    · rw [toJson_eq]
      exact .fields (List.forall_mem_cons.mpr ⟨.text _, textual_fields n⟩)
    · exact textual_listToJson ns v hv

end

/-- A node is written with strings, arrays and objects only. -/
theorem textual_toJson (n : SourceNode) : Textual n.toJson :=
  textual_listToJson [n] _ (List.mem_singleton_self _)

/-! ## Reading -/

/-- A set of names is written in order, and read back as that set. -/
theorem nameSet_namesToJson (names : NameSet) : nameSet (namesToJson names) = .ok names := by
  rw [nameSet, namesToJson, Decode.list_ofStrings]
  exact congrArg Except.ok (ofList_toList names)

/-- The kind of a node is found in front of its fields. -/
theorem split_toJson {depth : Nat} (numbered : Bool) {n : SourceNode}
    (hdepth : n.toJson.nesting ≤ depth + 1) :
    (tagging numbered depth).split n.toJson = .ok (n.kind, ofFields n.fields) := by
  rw [toJson_eq, Json.nesting_ofFields_le_iff, List.forall_mem_cons] at hdepth
  rw [toJson_eq]
  refine Decode.split_ofFields (t := tagging numbered depth) ?_ fun f hf => ?_
  · cases n <;> rfl
  · exact ⟨n.kind_not_mem_fields f hf, (n.textual_fields f hf).isReadable (hdepth.2 f hf)⟩

/-- What is written of the nodes below a node nests less deeply. -/
theorem nesting_children {n : SourceNode} {depth : Nat} (hdepth : n.toJson.nesting ≤ depth + 1) :
    ∀ v ∈ listToJson n.children, v.nesting ≤ depth := by
  rw [toJson_eq, Json.nesting_ofFields_le_iff, List.forall_mem_cons] at hdepth
  cases n with
  | file path entities =>
    exact Json.nesting_le_of_mem_array (hdepth.2 ("entities", _) (by simp [fields, children]))
  | type name supertypes modifiers members =>
    exact Json.nesting_le_of_mem_array (hdepth.2 ("members", _) (by simp [fields, children]))
  | var name modifiers initializer => exact fun v hv => absurd hv List.not_mem_nil
  | function signature parameters modifiers body => exact fun v hv => absurd hv List.not_mem_nil

/-! The shapes of the four kinds, and the fields of the two kinds that hold no nodes. -/

/-- A file's fields are declared once each, and those required are among them. -/
theorem sound_fileShape (node : Json → Decode.Result SourceNode) : (fileShape node).Sound :=
  ⟨by simp [fileShape], by simp [fileShape]⟩

theorem sound_typeShape (node : Json → Decode.Result SourceNode) : (typeShape node).Sound :=
  ⟨by simp [typeShape], by simp [typeShape]⟩

theorem sound_varShape : varShape.Sound :=
  ⟨by simp [varShape], by simp [varShape]⟩

theorem sound_functionShape : functionShape.Sound :=
  ⟨by simp [functionShape], by simp [functionShape]⟩

/-- The fields written of a variable fill the shape a variable is read into. -/
theorem fills_varShape (name : String) (modifiers : NameSet) (initializer : List String) :
    Decode.Fills varShape {} (var name modifiers initializer).fields
      ⟨name, modifiers, initializer⟩ :=
  .cons rfl <| .cons (congrArg (Except.map _) (nameSet_namesToJson modifiers)) <|
    .cons (congrArg (Except.map _) (Decode.list_ofStrings initializer)) (.nil _)

/-- The fields written of a function fill the shape a function is read into. -/
theorem fills_functionShape (signature : String) (parameters : List String) (modifiers : NameSet)
    (body : List String) :
    Decode.Fills functionShape {} (function signature parameters modifiers body).fields
      ⟨signature, parameters, modifiers, body⟩ :=
  .cons rfl <| .cons (congrArg (Except.map _) (Decode.list_ofStrings parameters)) <|
    .cons (congrArg (Except.map _) (nameSet_namesToJson modifiers)) <|
    .cons (congrArg (Except.map _) (Decode.list_ofStrings body)) (.nil _)

mutual

/-- A node is read back from the object written for it. -/
theorem decode_toJson : ∀ (n : SourceNode) {depth : Nat} (numbered : Bool),
    n.toJson.nesting ≤ depth → decode depth numbered n.toJson = .ok n
  | n, 0, _, hdepth => by
    have hpos := Json.nesting_ofFields_pos (("kind", ofString n.kind.name) :: n.fields)
    rw [← toJson_eq] at hpos
    omega
  | file path entities, depth + 1, numbered, hdepth => by
    have hentities := decode_listToJson entities (nesting_children hdepth)
    have hfills : Decode.Fills (fileShape (decode depth true)) ("", [])
        (fields (file path entities)) (path, entities) :=
      .cons rfl (.cons (congrArg (Except.map _) hentities) (.nil _))
    rw [decode, split_toJson numbered hdepth]
    dsimp only [kind]
    rw [Decode.record_ofFields (sound_fileShape _) rfl hfills]
    rfl
  | type name supertypes modifiers members, depth + 1, numbered, hdepth => by
    have hmembers := decode_listToJson members (nesting_children hdepth)
    have hfills : Decode.Fills (typeShape (decode depth true)) {}
        (fields (type name supertypes modifiers members))
        ⟨name, supertypes, modifiers, members⟩ :=
      .cons rfl <| .cons (congrArg (Except.map _) (nameSet_namesToJson supertypes)) <|
        .cons (congrArg (Except.map _) (nameSet_namesToJson modifiers)) <|
        .cons (congrArg (Except.map _) hmembers) (.nil _)
    rw [decode, split_toJson numbered hdepth]
    dsimp only [kind]
    rw [Decode.record_ofFields (sound_typeShape _) rfl hfills]
    rfl
  | var name modifiers initializer, depth + 1, numbered, hdepth => by
    rw [decode, split_toJson numbered hdepth]
    dsimp only [kind]
    rw [Decode.record_ofFields sound_varShape rfl
      (fills_varShape name modifiers initializer)]
    rfl
  | function signature parameters modifiers body, depth + 1, numbered, hdepth => by
    rw [decode, split_toJson numbered hdepth]
    dsimp only [kind]
    rw [Decode.record_ofFields sound_functionShape rfl
      (fills_functionShape signature parameters modifiers body)]
    rfl

/-- A list of nodes is read back, when its nesting fits the depth left. -/
theorem decode_listToJson : ∀ (ns : List SourceNode) {depth : Nat},
    (∀ v ∈ listToJson ns, v.nesting ≤ depth) → (listToJson ns).mapM (decode depth true) = .ok ns
  | [], _, _ => rfl
  | n :: ns, depth, hdepth => by
    obtain ⟨hn, hns⟩ := List.forall_mem_cons.mp hdepth
    rw [listToJson, List.mapM_cons, decode_toJson n true hn, decode_listToJson ns hns]
    rfl

end

end Cochange.SourceNode
