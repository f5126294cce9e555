import Cochange.SourceNode.Walk
import Mathlib.Data.List.Basic

/-!
# Ids of one source file

The path of an id is its text up to the first separator. It is kept on every way from one id to
another: the node around an id, its children, everything within it and every node of a walk that
begins at it belong to the same source file.
-/

namespace Cochange

namespace QualifiedId

variable {x p c outer : QualifiedId}

theorem sourcePath_of_parent? (h : x.parent? = some p) : p.sourcePath = x.sourcePath := by
  unfold parent? at h
  split at h
  next => cases h; rfl
  next => cases h
  next => cases h; rfl

theorem sourcePath_of_child {kind : NodeKind} {name : String} (h : x.child kind name = .ok c) :
    c.sourcePath = x.sourcePath := by
  unfold child at h
  split at h
  next => cases h
  all_goals
    split at h
    next => cases h; rfl
    next => cases h

/-! ## What is within an id -/

/-- Whether a character is no separator. -/
def isPlain (ch : Char) : Bool :=
  ch ≠ ':' && ch ≠ '#'

theorem isPlain_eq_false {ch : Char} : isPlain ch = false ↔ ch = ':' ∨ ch = '#' := by
  simp [isPlain, or_iff_not_imp_left]

/-- A text that is empty or begins with a separator. -/
def StartsApart (cs : List Char) : Prop :=
  ∀ ch ∈ cs.head?, isPlain ch = false

/-- The path ends at the first separator. -/
theorem takeWhile_isPlain_append {path rest : List Char} (hp : ':' ∉ path ∧ '#' ∉ path)
    (hr : StartsApart rest) : (path ++ rest).takeWhile isPlain = path := by
  have hplain : ∀ ch ∈ path, isPlain ch = true := by
    intro ch hch
    simp only [isPlain, Bool.and_eq_true, decide_eq_true_eq]
    exact ⟨fun he => hp.1 (he ▸ hch), fun he => hp.2 (he ▸ hch)⟩
  rw [List.takeWhile_append_of_pos hplain]
  cases rest with
  | nil => simp
  | cons ch rest => rw [List.takeWhile_cons_of_neg (by simp [hr ch rfl]), List.append_nil]

/-- What types and a member add to the text of an id. -/
def behind (types : List Token) (member : Option Member) : List Char :=
  types.flatMap (fun t => ':' :: t.text.toList) ++
    match member with
    | none => []
    | some m => '#' :: m.text.toList

/-- What stands behind the path in the text of an id. -/
def behindPath (x : QualifiedId) : List Char :=
  behind x.types x.member

theorem toList_text_eq (x : QualifiedId) : x.text.toList = x.path.text.toList ++ x.behindPath := by
  rw [toList_text, behindPath]
  exact List.append_assoc ..

theorem startsApart_behind (types : List Token) (member : Option Member) :
    StartsApart (behind types member) := by
  intro ch hch
  unfold behind at hch
  cases types with
  | nil =>
    cases member with
    | none => cases hch
    | some m =>
      cases hch
      rfl
  | cons t ts =>
    cases hch
    rfl

theorem startsApart_behindPath (x : QualifiedId) : StartsApart x.behindPath :=
  startsApart_behind x.types x.member

/-- An id is within another one if its text is the other's, continued at most behind a separator. -/
theorem isWithin_iff_text : x.isWithin outer = true ↔
    ∃ rest, x.text.toList = outer.text.toList ++ rest ∧ StartsApart rest := by
  constructor
  · intro h
    unfold isWithin at h
    split at h
    next => cases h
    next hp =>
      have hnil := (List.isPrefixOf?_eq_some_iff_append_eq.mp hp).symm
      exact ⟨[], hnil, fun ch hch => by cases hch⟩
    next ch rest hp =>
      refine ⟨ch :: rest, (List.isPrefixOf?_eq_some_iff_append_eq.mp hp).symm, fun d hd => ?_⟩
      cases hd
      exact isPlain_eq_false.mpr (by simpa using h)
  · rintro ⟨rest, hrest, hapart⟩
    unfold isWithin
    rw [List.isPrefixOf?_eq_some_iff_append_eq.mpr hrest.symm]
    cases rest with
    | nil => rfl
    | cons ch rest => simpa using isPlain_eq_false.mp (hapart ch rfl)

/-- What is within a node belongs to the same source file. -/
theorem sourcePath_of_isWithin (h : x.isWithin outer = true) : x.sourcePath = outer.sourcePath := by
  obtain ⟨rest, hrest, hapart⟩ := isWithin_iff_text.mp h
  have hx := takeWhile_isPlain_append x.path.ok.2 x.startsApart_behindPath
  -- the text of `x` begins with the path of `outer`, and a separator stands behind that
  have houter : StartsApart (outer.behindPath ++ rest) := by
    intro ch hch
    have hstart := outer.startsApart_behindPath
    cases hb : outer.behindPath with
    | nil =>
      rw [hb] at hch
      exact hapart ch hch
    | cons d ds =>
      rw [hb] at hch hstart
      exact hstart ch hch
  have ho := takeWhile_isPlain_append outer.path.ok.2 houter
  rw [← toList_text_eq, hrest, toList_text_eq, List.append_assoc, ho] at hx
  exact String.toList_inj.mp hx.symm

end QualifiedId

/-! ## Walks -/

namespace SourceNode

/-- The id that a walk begins with is its first. -/
theorem exists_of_walk {id : QualifiedId} {n : SourceNode}
    {nodes : List (QualifiedId × SourceNode)} (h : n.walk id = .ok nodes) :
    ∃ rest, nodes = (id, n) :: rest := by
  rw [walk_eq] at h
  split at h
  next => cases h
  next ids _ =>
    cases heach : walkEach ids n.children with
    | error why =>
      rw [heach] at h
      cases h
    | ok rest =>
      rw [heach] at h
      cases h
      exact ⟨rest, rfl⟩

/-- What passes from every node to its children. -/
def Inherited (P : QualifiedId → Prop) : Prop :=
  ∀ ⦃x c : QualifiedId⦄ ⦃kind : NodeKind⦄ ⦃name : String⦄, P x → x.child kind name = .ok c → P c

variable {P : QualifiedId → Prop}

/-- The node itself and what the walks of its children give. -/
theorem of_mem_map_cons {id : QualifiedId} (hid : P id) {n : SourceNode}
    {below : Except IdError (List (QualifiedId × SourceNode))}
    (hbelow : ∀ nodes, below = .ok nodes → ∀ m ∈ nodes, P m.1)
    {nodes : List (QualifiedId × SourceNode)} (h : below.map ((id, n) :: ·) = .ok nodes) :
    ∀ m ∈ nodes, P m.1 := by
  cases below with
  | error e => cases h
  | ok rest =>
    cases h
    intro m hm
    rcases List.mem_cons.mp hm with rfl | hm
    · exact hid
    · exact hbelow rest rfl m hm

theorem of_mem_qualify (hP : Inherited P) {id : QualifiedId} (hid : P id) : ∀ {ns : List SourceNode}
    {ids : List QualifiedId}, qualify id ns = .ok ids → ∀ c ∈ ids, P c
  | [], _, h => by
    cases h
    exact fun c hc => absurd hc List.not_mem_nil
  | n :: ns, ids, h => by
    unfold qualify at h
    split at h
    next => cases h
    next rest hrest =>
      split at h
      next => cases h
      next c hc =>
        cases h
        intro d hd
        rcases List.mem_cons.mp hd with rfl | hd
        · exact hP hid hc
        · exact of_mem_qualify hP hid hrest d hd

mutual

/-- What passes to children holds of all nodes of a walk, if it holds of the first. -/
theorem of_mem_walk (hP : Inherited P) : ∀ (n : SourceNode) {id : QualifiedId}
    {nodes : List (QualifiedId × SourceNode)}, P id → n.walk id = .ok nodes →
    ∀ m ∈ nodes, P m.1
  | file path entities, id, nodes, hid, h => by
    unfold walk at h
    split at h
    next => cases h
    next ids hids =>
      exact of_mem_map_cons hid (fun rest hrest => of_mem_walkEach hP entities
        (of_mem_qualify hP hid hids) hrest) h
  | type name supertypes modifiers members, id, nodes, hid, h => by
    unfold walk at h
    split at h
    next => cases h
    next ids hids =>
      exact of_mem_map_cons hid (fun rest hrest => of_mem_walkEach hP members
        (of_mem_qualify hP hid hids) hrest) h
  | var .., id, nodes, hid, h => by
    cases h
    exact fun m hm => List.mem_singleton.mp hm ▸ hid
  | function .., id, nodes, hid, h => by
    cases h
    exact fun m hm => List.mem_singleton.mp hm ▸ hid

/-- What children inherit from their parents holds of every id that a walk gives. -/
theorem of_mem_walkEach (hP : Inherited P) : ∀ (ns : List SourceNode) {ids : List QualifiedId}
    {nodes : List (QualifiedId × SourceNode)}, (∀ id ∈ ids, P id) →
    walkEach ids ns = .ok nodes → ∀ m ∈ nodes, P m.1
  | [], ids, nodes, _, h => by
    cases ids <;> (cases h; exact fun m hm => absurd hm List.not_mem_nil)
  | n :: ns, [], nodes, _, h => by
    cases h
    exact fun m hm => absurd hm List.not_mem_nil
  | n :: ns, id :: ids, nodes, hids, h => by
    unfold walkEach at h
    split at h
    next => cases h
    next here hhere =>
      cases hrest : walkEach ids ns with
      | error e =>
        rw [hrest] at h
        cases h
      | ok rest =>
        rw [hrest] at h
        cases h
        intro m hm
        rcases List.mem_append.mp hm with hm | hm
        · exact of_mem_walk hP n (hids id List.mem_cons_self) hhere m hm
        · exact of_mem_walkEach hP ns (fun c hc => hids c (List.mem_cons_of_mem id hc)) hrest m hm

end

end SourceNode

/-- All nodes of a walk belong to the source file of the node where it begins. -/
theorem sourcePath_of_mem_walk {id : QualifiedId} {n : SourceNode}
    {nodes : List (QualifiedId × SourceNode)} (h : n.walk id = .ok nodes) :
    ∀ m ∈ nodes, m.1.sourcePath = id.sourcePath :=
  SourceNode.of_mem_walk
    (fun _ _ _ _ hx hc => (QualifiedId.sourcePath_of_child hc).trans hx) n rfl h

/-! ## Parts of sample ids -/

theorem isToken_samplePath : IsToken "a.rs".toList := by decide

theorem isMember_sampleSignature : IsMember "f()".toList := by decide

end Cochange
