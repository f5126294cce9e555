import Cochange.Program.Machine
import Cochange.QualifiedId.Basic
import Mathlib.Data.List.Basic

/-!
# Where graphs are written

The graph with a label is written below the directory of its analysis, in the directory that the
names in the label lead to. Two labels lead to one directory exactly if they have the same names:
`./a.rs` and `a.rs` do, although they are different paths (`ofGraph_not_injective`).

So a graph can be lost, but only to a later one whose label has the same names. All others are
found where they were written, once all are written (`graphs_written_apart`).

Putting a name below a directory puts it behind the way to that directory (`wayTo_join`), whether
the directory is empty, ends in a slash or does not; with it the directories of graphs are compared
by the ways to them, where nothing of the label is left but its names (`wayTo_ofGraph`).
-/

namespace Cochange

namespace Path

/-- The segments of a path that are not empty. -/
def steps (path : String) : List String :=
  (segments path).filter (· ≠ "")

theorem segments_append (p q : String) : segments (p ++ "/" ++ q) = segments p ++ segments q := by
  have hlist : (p ++ "/" ++ q).toList = p.toList ++ '/' :: q.toList := by
    rw [String.toList_append, String.toList_append, List.append_assoc]
    rfl
  unfold segments
  rw [hlist, Text.pieces_append]
  simp only [List.map_append, List.map_cons, List.cons_append]

theorem segments_of_not_mem {n : String} (hn : '/' ∉ n.toList) : segments n = [n] := by
  unfold segments
  rw [Text.pieces_of_not_mem hn]
  simp only [List.map_cons, List.map_nil, String.ofList_toList]

theorem steps_append (p q : String) : steps (p ++ "/" ++ q) = steps p ++ steps q := by
  unfold steps
  rw [segments_append, List.filter_append]

theorem isAbsolute_append {p : String} (hp : p ≠ "") (q : String) :
    isAbsolute (p ++ q) = isAbsolute p := by
  unfold isAbsolute
  rw [String.toList_append, List.head?_append_of_ne_nil]
  exact fun h => hp (String.toList_eq_nil_iff.mp h)

/-- What a segment is that names something. -/
structure IsPlain (n : String) : Prop where
  isName : isName n = true
  slash_not_mem : '/' ∉ n.toList

theorem isPlain_of_mem_names {path n : String} (hn : n ∈ names path) : IsPlain n where
  isName := (mem_names.mp hn).2
  slash_not_mem := slash_not_mem_of_mem_segments (mem_names.mp hn).1

namespace IsPlain

variable {n : String} (hn : IsPlain n)
include hn

theorem ne_empty : n ≠ "" := by
  rintro rfl
  exact absurd hn.isName (by decide)

theorem ne_dots : n ≠ "." ∧ n ≠ ".." := by
  have h := hn.isName
  simp only [Path.isName, Bool.and_eq_true, decide_eq_true_eq] at h
  exact ⟨h.1.2, h.2⟩

theorem steps_eq : steps n = [n] := by
  unfold steps
  rw [segments_of_not_mem hn.slash_not_mem]
  exact List.filter_cons_of_pos (by simpa using hn.ne_empty)

theorem not_isAbsolute : isAbsolute n = false := by
  refine decide_eq_false fun h => hn.slash_not_mem ?_
  exact List.mem_of_mem_head? h

/-- The three ways in which a name is put below a directory. -/
theorem join_cases (directory : String) :
    (directory = "" ∧ join directory n = n) ∨
      ∃ p, join directory n = p ++ "/" ++ n ∧ (directory = p ++ "/" ∨ directory = p ∧ p ≠ "") := by
  unfold join
  rw [hn.not_isAbsolute, Bool.false_or]
  by_cases hd : directory = ""
  · exact Or.inl ⟨hd, if_pos (decide_eq_true hd)⟩
  right
  rw [if_neg (by simpa using hd)]
  split
  next hlast =>
    obtain ⟨p, hp⟩ := List.getLast?_eq_some_iff.mp hlast
    have hdir : directory = String.ofList p ++ "/" := by
      rw [← String.toList_inj, hp, String.toList_append, String.toList_ofList]
      rfl
    exact ⟨String.ofList p, congrArg (· ++ n) hdir, Or.inl hdir⟩
  next => exact ⟨directory, rfl, Or.inr ⟨rfl, hd⟩⟩

/-- Joining a plain name is one more step. -/
theorem steps_join (directory : String) : steps (join directory n) = steps directory ++ [n] := by
  rcases hn.join_cases directory with ⟨rfl, hj⟩ | ⟨p, hj, hp⟩
  · rw [hj, hn.steps_eq]
    rfl
  have hdir : steps directory = steps p := by
    rcases hp with rfl | ⟨rfl, -⟩
    · rw [← String.append_empty (s := p ++ "/"), steps_append]
      exact List.append_nil _
    · rfl
  rw [hj, steps_append, hn.steps_eq, hdir]

theorem isAbsolute_join (directory : String) :
    isAbsolute (join directory n) = isAbsolute directory := by
  rcases hn.join_cases directory with ⟨rfl, hj⟩ | ⟨p, hj, rfl | ⟨rfl, hp⟩⟩
  · rw [hj, hn.not_isAbsolute]
    rfl
  · rw [hj]
    exact isAbsolute_append (by simp) n
  · rw [hj, String.append_assoc]
    exact isAbsolute_append hp _

end IsPlain

/-- What a name adds when it is put below a directory, all names in a label add for a graph. -/
theorem apply_ofGraph {β : Type} {f : String → List β} {g : String → β}
    (h : ∀ {n : String}, IsPlain n → ∀ directory, f (join directory n) = f directory ++ [g n])
    (directory analysis label : String) :
    f (ofGraph directory analysis label) =
      f (join directory analysis) ++ (names label).map g := by
  have hns : ∀ n ∈ names label, IsPlain n := fun n hn => isPlain_of_mem_names hn
  unfold ofGraph
  generalize join directory analysis = below
  generalize names label = ns at hns ⊢
  induction ns generalizing below with
  | nil => exact (List.append_nil _).symm
  | cons n ns ih =>
    rw [List.foldl_cons, ih _ fun n' hn' => hns n' (List.mem_cons_of_mem n hn'),
      h (hns n List.mem_cons_self), List.append_assoc]
    rfl

end Path

namespace Machine

/-- The way that a path leads, whatever there is on it. -/
def wayTo (path : String) : List String :=
  (Path.steps path).foldl
    (fun way step => if step = "." then way else if step = ".." then up way else way ++ [step])
    (if Path.isAbsolute path then ["/"] else [])

/-- From the root, too, joining a plain name is one more step. -/
theorem wayTo_join {n : String} (hn : Path.IsPlain n) (directory : String) :
    wayTo (Path.join directory n) = wayTo directory ++ [n] := by
  unfold wayTo
  rw [hn.isAbsolute_join, hn.steps_join, List.foldl_concat, if_neg hn.ne_dots.1,
    if_neg hn.ne_dots.2]

/-- The way to the directory of a graph: behind that of the analysis, the names in the label. -/
theorem wayTo_ofGraph (directory analysis label : String) :
    wayTo (Path.ofGraph directory analysis label) =
      wayTo (Path.join directory analysis) ++ Path.names label := by
  rw [Path.apply_ofGraph wayTo_join, List.map_id']

/-- A directory that can be gone to is where the path leads. -/
theorem directory?_eq {m : Machine} {make : Bool} {path : String} {way : List String}
    (h : m.directory? make path = some way) : way = wayTo path := by
  unfold directory? at h
  unfold wayTo Path.steps
  generalize (if Path.isAbsolute path then ["/"] else []) = start at h ⊢
  generalize Path.segments path = segments at h ⊢
  induction segments generalizing start with
  | nil =>
    cases h
    rfl
  | cons segment segments ih =>
    rw [List.foldlM_cons] at h
    obtain ⟨next, hnext, hrest⟩ := Option.bind_eq_some_iff.mp h
    rw [ih next hrest]
    by_cases hempty : segment = ""
    · rw [if_pos (by simp [hempty])] at hnext
      rw [List.filter_cons_of_neg (by simp [hempty]), Option.some.inj hnext]
    rw [List.filter_cons_of_pos (by simpa using hempty), List.foldl_cons]
    congr 1
    by_cases hdot : segment = "."
    · rw [if_pos (by simp [hdot])] at hnext
      rw [if_pos hdot, Option.some.inj hnext]
    rw [if_neg (by simp [hempty, hdot])] at hnext
    rw [if_neg hdot]
    by_cases hup : segment = ".."
    · rw [if_pos hup] at hnext
      rw [if_pos hup, Option.some.inj hnext]
    rw [if_neg hup] at hnext
    rw [if_neg hup]
    dsimp only at hnext
    split at hnext
    next => cases hnext
    next => exact (Option.some.inj hnext).symm

theorem lookup_filter_ne {way way' : List String} (h : way ≠ way')
    (files : List (List String × String)) :
    (files.filter (·.1 ≠ way')).lookup way = files.lookup way := by
  induction files with
  | nil => rfl
  | cons f files ih =>
    by_cases hf : f.1 = way'
    · rw [List.filter_cons_of_neg (by simpa using hf), ih, List.lookup_cons,
        beq_false_of_ne (hf ▸ h)]
    · rw [List.filter_cons_of_pos (by simpa using hf), List.lookup_cons, List.lookup_cons, ih]

/-- Writing a file changes what is found there and nothing else. -/
theorem lookup_writeFile? {m m' : Machine} {directory name content : String}
    (h : m.writeFile? directory name content = some m') (way : List String) :
    m'.files.lookup way =
      if way = wayTo directory ++ [name] then some content else m.files.lookup way := by
  unfold writeFile? at h
  split at h
  next => cases h
  next dir hdir =>
    rw [directory?_eq hdir] at h
    dsimp only at h
    split at h
    next => cases h
    next =>
      cases h
      by_cases hway : way = wayTo directory ++ [name]
      · rw [if_pos hway, hway, List.lookup_cons_self]
      · have hcons : ∀ files : List (List String × String),
            List.lookup way ((wayTo directory ++ [name], content) :: files) =
              List.lookup way files := by
          intro files
          rw [List.lookup_cons, beq_false_of_ne hway]
        rw [if_neg hway, hcons, lookup_filter_ne hway]

/-- Writing a file on the machine: it succeeds or leaves the machine as it was. -/
theorem run_writeFile (m : Machine) (directory name content : String) :
    (Host.writeFile directory name content : StateM Machine Bool).run m =
      match m.writeFile? directory name content with
      | some m' => (true, m')
      | none => (false, m) := by
  cases h : m.writeFile? directory name content <;>
    simp only [Host.writeFile, StateT.run_bind, StateT.run_get, pure_bind, h] <;> rfl

end Machine

namespace Program

open CommandLine

/-- What writing the graphs of an analysis comes to, and the machine behind it. -/
def written (o : Options) (analysis : String) (gs : List (ColoredGraph Float)) (m : Machine) :
    Except Failure Unit × Machine :=
  (writeGraphs o analysis gs : Action (StateM Machine) Unit).run.run m

/-- The way to the file of the graph with a label. -/
def graphFile (o : Options) (analysis label : String) : List String :=
  Machine.wayTo (Path.ofGraph o.graphDir analysis label) ++ ["graph.json"]

variable {o : Options} {analysis : String}

/-- The program is told whether a file could be written, and goes on. -/
theorem run_lift_writeFile (m : Machine) (directory name content : String) :
    (liftM (Host.writeFile directory name content : StateM Machine Bool) :
      Action (StateM Machine) Bool).run.run m =
      match m.writeFile? directory name content with
      | some m' => (.ok true, m')
      | none => (.ok false, m) := by
  have hlift : (liftM (Host.writeFile directory name content : StateM Machine Bool) :
      Action (StateM Machine) Bool).run.run m =
      (.ok ((Host.writeFile directory name content : StateM Machine Bool).run m).1,
        ((Host.writeFile directory name content : StateM Machine Bool).run m).2) := rfl
  rw [hlift, Machine.run_writeFile]
  split <;> rfl

theorem written_nil (m : Machine) : written o analysis [] m = (.ok (), m) := rfl

/-- The graphs are written one after the other, up to the first that fails. -/
theorem written_cons (ho : o.noGraphs = false) (g : ColoredGraph Float)
    (gs : List (ColoredGraph Float)) (m : Machine) :
    written o analysis (g :: gs) m =
      match m.writeFile? (Path.ofGraph o.graphDir analysis g.graph.label) "graph.json"
        g.toJson.pretty with
      | some m => written o analysis gs m
      | none => (.error (.unwritable (Path.ofGraph o.graphDir analysis g.graph.label)), m) := by
  have hwrite := run_lift_writeFile m (Path.ofGraph o.graphDir analysis g.graph.label)
    "graph.json" g.toJson.pretty
  unfold written
  rw [writeGraphs, if_neg (by simp [ho])]
  simp only [ExceptT.run_bind, StateT.run_bind]
  rw [hwrite]
  split <;> rfl

/-- Once all graphs are written, the file of a graph holds the last graph that is written there, and
all other files are as before. -/
theorem lookup_written (ho : o.noGraphs = false) (gs : List (ColoredGraph Float)) :
    ∀ {m m' : Machine}, written o analysis gs m = (.ok (), m') → ∀ way,
      m'.files.lookup way =
        ((gs.reverse.find? fun g => graphFile o analysis g.graph.label = way).map
          (·.toJson.pretty)).or (m.files.lookup way) := by
  induction gs with
  | nil =>
    intro m m' h way
    rw [written_nil] at h
    rw [(Prod.mk.inj h).2]
    rfl
  | cons g gs ih =>
    intro m m' h way
    rw [written_cons ho] at h
    split at h
    next m₁ hm₁ =>
      have hfirst : m₁.files.lookup way =
          if graphFile o analysis g.graph.label = way then some g.toJson.pretty
          else m.files.lookup way := by
        rw [Machine.lookup_writeFile? hm₁]
        exact if_congr eq_comm rfl rfl
      rw [ih h way, hfirst, List.reverse_cons, List.find?_append, Option.map_or, Option.or_assoc]
      refine congrArg (Option.or _) ?_
      by_cases hway : graphFile o analysis g.graph.label = way
      · rw [if_pos hway, List.find?_cons_of_pos (by exact decide_eq_true hway)]
        rfl
      · rw [if_neg hway, List.find?_cons_of_neg (by exact fun h => hway (of_decide_eq_true h))]
        rfl
    next => cases (Prod.mk.inj h).1

/-- Two labels have one file exactly when their plain names agree. -/
theorem graphFile_eq_iff {label label' : String} :
    graphFile o analysis label = graphFile o analysis label' ↔
      Path.names label = Path.names label' := by
  unfold graphFile
  rw [Machine.wayTo_ofGraph, Machine.wayTo_ofGraph, List.append_left_inj, List.append_right_inj]

/-- Two labels lead to one directory, and to one file in it, exactly if they have the same names in
the same order. When all graphs of an analysis are written, each is found in its file unless a
later one has a label with the same names. -/
theorem graphs_written_apart (o : Options) (analysis : String) :
    (∀ label label' : String,
      Path.ofGraph o.graphDir analysis label = Path.ofGraph o.graphDir analysis label' ↔
        Path.names label = Path.names label') ∧
    (∀ label label' : String,
      graphFile o analysis label = graphFile o analysis label' ↔
        Path.names label = Path.names label') ∧
    ∀ (before : List (ColoredGraph Float)) (g : ColoredGraph Float)
      (behind : List (ColoredGraph Float)) (m m' : Machine), o.noGraphs = false →
      written o analysis (before ++ g :: behind) m = (.ok (), m') →
      (∀ g' ∈ behind, Path.names g'.graph.label ≠ Path.names g.graph.label) →
      m'.files.lookup (graphFile o analysis g.graph.label) = some g.toJson.pretty := by
  refine ⟨fun label label' => ⟨fun h => ?_, fun h => ?_⟩, fun _ _ => graphFile_eq_iff, ?_⟩
  · exact graphFile_eq_iff.mp (congrArg (Machine.wayTo · ++ ["graph.json"]) h)
  · unfold Path.ofGraph
    rw [h]
  · intro before g behind m m' ho h hbehind
    have hlater : (behind.reverse.find? fun g' =>
        graphFile o analysis g'.graph.label = graphFile o analysis g.graph.label) = none := by
      refine List.find?_eq_none.mpr fun g' hg' => ?_
      rw [decide_eq_true_iff, graphFile_eq_iff]
      exact hbehind g' (List.mem_reverse.mp hg')
    rw [lookup_written ho _ h, List.reverse_append, List.reverse_cons, List.append_assoc,
      List.find?_append, hlater, Option.none_or, List.singleton_append,
      List.find?_cons_of_pos (by exact decide_eq_true rfl)]
    rfl

/-- A graph with nothing but a label. -/
def emptyGraph (label : String) : ColoredGraph Float :=
  .ofGroups { label, nodes := [], edges := [] } []

theorem exists_written {gs : List (ColoredGraph Float)} {m : Machine}
    (h : (written o analysis gs m).1.isOk = true) :
    ∃ m', written o analysis gs m = (.ok (), m') := by
  rcases hw : written o analysis gs m with ⟨why | ⟨⟩, m'⟩
  · rw [hw] at h
    cases h
  · exact ⟨m', rfl⟩

/-- The directory of one graph may be within that of another. -/
theorem graphs_written_apart_nested :
    ∃ m, written {} "feature-envy" [emptyGraph "a", emptyGraph "a/b.rs"] {} = (.ok (), m) ∧
      m.files.lookup (graphFile {} "feature-envy" "a") = some (emptyGraph "a").toJson.pretty ∧
      m.files.lookup (graphFile {} "feature-envy" "a/b.rs") =
        some (emptyGraph "a/b.rs").toJson.pretty := by
  have hok : (written {} "feature-envy" [emptyGraph "a", emptyGraph "a/b.rs"] {}).1.isOk = true := by
    decide +kernel
  obtain ⟨m, hm⟩ := exists_written hok
  have hnames : ∀ g' ∈ [emptyGraph "a/b.rs"],
      Path.names g'.graph.label ≠ Path.names (emptyGraph "a").graph.label := by
    intro g' hg'
    rw [List.mem_singleton] at hg'
    subst hg'
    decide +kernel
  obtain ⟨-, -, hkept⟩ := graphs_written_apart {} "feature-envy"
  exact ⟨m, hm, hkept [] (emptyGraph "a") [emptyGraph "a/b.rs"] {} m rfl hm hnames,
    hkept [emptyGraph "a"] (emptyGraph "a/b.rs") [] {} m rfl hm fun g' hg' =>
      absurd hg' List.not_mem_nil⟩

/-- Different labels are not enough for different directories, even if they are paths of files. -/
theorem ofGraph_not_injective :
    ¬∀ directory analysis label label' : String, IsToken label.toList → IsToken label'.toList →
      label ≠ label' →
      Path.ofGraph directory analysis label ≠ Path.ofGraph directory analysis label' := by
  intro h
  exact h "g" "divergent-change" "a.rs" "./a.rs" (by decide) (by decide) (by decide)
    (by decide +kernel)

end Program

end Cochange
