import Cochange.Proofs.Program.Directories

/-!
# Graphs stay below their directory

A label comes from a history, and any text may be one: it may start at the root, hold `..` as often
as it likes, or repeat slashes. Of all this only the normal components of the label are put below
the directory of the analysis, in their order (`components_ofGraph`). So the path has the components
of that directory and then nothing but names, the way to it leads through that directory
(`wayTo_prefix_ofGraph`), and nothing that lies elsewhere changes when graphs are written, even if
writing fails at one of them (`lookup_written_elsewhere`).

Components are told from segments here as a walk along the path sees them: the root, a `.` where the
path starts, every `..`, and names.
-/

namespace Cochange

namespace Path

/-- What a path is made of. -/
inductive Component where
  | root
  | current
  | parent
  | normal (name : String)
  deriving DecidableEq

namespace Component

/-- Whether a component is a name. -/
def isNormal : Component → Bool
  | normal _ => true
  | _ => false

/-- What a segment is, unless it stays where it is. -/
def ofSegment? (segment : String) : Option Component :=
  if segment = "" ∨ segment = "." then none
  else if segment = ".." then some parent
  else some (normal segment)

end Component

/-- What a path starts with before its segments are gone through: the root, or a `.` if that is the
first segment. -/
def start (path : String) : List Component :=
  if isAbsolute path then [.root]
  else if (segments path).head? = some "." then [.current]
  else []

/-- The components of a path, in order. -/
def components (path : String) : List Component :=
  start path ++ (segments path).filterMap Component.ofSegment?

example : components "./a//../b/." = [.current, .normal "a", .parent, .normal "b"] := by
  decide +kernel

theorem segments_ne_nil (path : String) : segments path ≠ [] :=
  List.cons_ne_nil _ _

theorem filter_ofSegment? (segment : String) :
    (Component.ofSegment? segment).filter Component.isNormal =
      if isName segment then some (Component.normal segment) else none := by
  unfold isName Component.ofSegment?
  by_cases hstays : segment = "" ∨ segment = "."
  · rw [if_pos hstays, if_neg (by rcases hstays with rfl | rfl <;> simp)]
    rfl
  rw [if_neg hstays]
  rw [not_or] at hstays
  by_cases hup : segment = ".."
  · rw [if_pos hup, if_neg (by simp [hup])]
    rfl
  · rw [if_neg hup, if_pos (by simp [hstays, hup])]
    rfl

/-- The names are the normal components. -/
theorem map_normal_names (path : String) :
    (names path).map Component.normal = (components path).filter Component.isNormal := by
  have hstart : (start path).filter Component.isNormal = [] := by
    unfold start
    split
    next => rfl
    next => split <;> rfl
  unfold components names
  rw [List.filter_append, hstart, List.nil_append, List.filter_filterMap, ← List.filterMap_eq_map,
    List.filterMap_filter]
  simp only [filter_ofSegment?, Function.comp_apply]

namespace IsPlain

variable {n : String} (hn : IsPlain n)
include hn

theorem ofSegment?_eq : Component.ofSegment? n = some (.normal n) := by
  unfold Component.ofSegment?
  rw [if_neg (not_or.mpr ⟨hn.ne_empty, hn.ne_dots.1⟩), if_neg hn.ne_dots.2]

/-- A name is put behind the components of a directory. -/
theorem components_join (directory : String) :
    components (join directory n) = components directory ++ [.normal n] := by
  have hlast : [n].filterMap Component.ofSegment? = [.normal n] := by
    rw [List.filterMap_cons, hn.ofSegment?_eq]
    rfl
  have hempty : components "" = [] := by decide +kernel
  have habsolute := hn.isAbsolute_join directory
  rcases hn.join_cases directory with ⟨rfl, hj⟩ | ⟨p, hj, hp⟩
  · have hdot : ¬[n].head? = some "." := by simpa using hn.ne_dots.1
    rw [hj, hempty, components, start, hn.not_isAbsolute, segments_of_not_mem hn.slash_not_mem,
      hlast, if_neg Bool.false_ne_true, if_neg hdot]
  -- with or without a slash at its end, the directory starts like `p` and has its components
  have hdirectory : (segments directory).head? = (segments p).head? ∧
      (segments directory).filterMap Component.ofSegment? =
        (segments p).filterMap Component.ofSegment? := by
    rcases hp with rfl | ⟨rfl, -⟩
    · have hslash : segments (p ++ "/") = segments p ++ segments "" := by
        rw [← segments_append, String.append_empty]
      have hnothing : (segments "").filterMap Component.ofSegment? = [] := by decide +kernel
      rw [hslash, List.head?_append_of_ne_nil _ (segments_ne_nil p), List.filterMap_append,
        hnothing, List.append_nil]
      exact ⟨rfl, rfl⟩
    · exact ⟨rfl, rfl⟩
  have hsegments : segments (join directory n) = segments p ++ [n] := by
    rw [hj, segments_append, segments_of_not_mem hn.slash_not_mem]
  have hstart : start (join directory n) = start directory := by
    unfold start
    rw [habsolute, hsegments, List.head?_append_of_ne_nil _ (segments_ne_nil p), hdirectory.1]
  unfold components
  rw [hstart, hsegments, List.filterMap_append, hlast, hdirectory.2, List.append_assoc]

end IsPlain

/-- Behind the directory of the analysis there are the normal components of the label. -/
theorem components_ofGraph (directory analysis label : String) :
    components (ofGraph directory analysis label) =
      components (join directory analysis) ++ (components label).filter Component.isNormal := by
  rw [← map_normal_names, apply_ofGraph IsPlain.components_join]

end Path

namespace Program

open CommandLine

variable {o : Options} {analysis : String}

/-- The way to the directory of a graph leads through that of the analysis. -/
theorem wayTo_prefix_ofGraph (directory analysis label : String) :
    Machine.wayTo (Path.join directory analysis) <+:
      Machine.wayTo (Path.ofGraph directory analysis label) := by
  rw [Machine.wayTo_ofGraph]
  exact List.prefix_append _ _

theorem written_of_noGraphs (ho : o.noGraphs = true) (gs : List (ColoredGraph Float))
    (m : Machine) : written o analysis gs m = (.ok (), m) := by
  cases gs with
  | nil => rfl
  | cons g gs =>
    unfold written
    rw [writeGraphs, if_pos ho]
    rfl

/-- Writing graphs changes nothing that does not lie below the directory of the analysis, whether
all of them can be written or not. -/
theorem lookup_written_elsewhere {way : List String}
    (hway : ¬Machine.wayTo (Path.join o.graphDir analysis) <+: way)
    (gs : List (ColoredGraph Float)) : ∀ m : Machine,
      (written o analysis gs m).2.files.lookup way = m.files.lookup way := by
  induction gs with
  | nil =>
    intro m
    rw [written_nil]
  | cons g gs ih =>
    intro m
    by_cases ho : o.noGraphs = true
    · rw [written_of_noGraphs ho]
    rw [written_cons (Bool.eq_false_iff.mpr ho)]
    split
    next m₁ hm₁ =>
      rw [ih, Machine.lookup_writeFile? hm₁, if_neg]
      intro hfile
      rw [hfile] at hway
      exact hway ((wayTo_prefix_ofGraph _ _ _).trans (List.prefix_append _ _))
    next => rfl

/-- Whatever its label is, a graph is written below the directory of its analysis: the path has the
components of that directory, and behind them the normal components of the label and nothing else.
So what lies elsewhere is as it was, once graphs have been written or one of them could not be. -/
theorem graphs_written_below (directory analysis label : String) :
    Path.components (Path.ofGraph directory analysis label) =
        Path.components (Path.join directory analysis) ++
          (Path.components label).filter Path.Component.isNormal ∧
      (∀ c ∈ (Path.components label).filter Path.Component.isNormal,
        ∃ n, c = .normal n ∧ n ≠ "" ∧ n ≠ "." ∧ n ≠ ".." ∧ '/' ∉ n.toList) ∧
      (Path.IsPlain analysis →
        Path.components (Path.join directory analysis) =
          Path.components directory ++ [.normal analysis]) ∧
      Machine.wayTo (Path.join directory analysis) <+:
        Machine.wayTo (Path.ofGraph directory analysis label) ∧
      ∀ (o : Options) (gs : List (ColoredGraph Float)) (m : Machine) (way : List String),
        o.graphDir = directory → ¬Machine.wayTo (Path.join directory analysis) <+: way →
          (written o analysis gs m).2.files.lookup way = m.files.lookup way := by
  refine ⟨Path.components_ofGraph .., fun c hc => ?_, fun ha => ha.components_join directory,
    wayTo_prefix_ofGraph .., fun o gs m way ho hway => ?_⟩
  · rw [← Path.map_normal_names] at hc
    obtain ⟨n, hn, rfl⟩ := List.mem_map.mp hc
    have hplain := Path.isPlain_of_mem_names hn
    exact ⟨n, rfl, hplain.ne_empty, hplain.ne_dots.1, hplain.ne_dots.2, hplain.slash_not_mem⟩
  · subst ho
    exact lookup_written_elsewhere hway gs m

/-- A label that starts at the root, goes up and names a file that is no graph. -/
def climbingLabel : String :=
  "/../..//etc/./passwd/.."

/-- What such a label names stays as it is, and its graph is written to a directory of that name
below the directory of the analysis. -/
theorem graphs_written_below_climbing :
    Path.components (Path.ofGraph "out/" "feature-envy" climbingLabel) =
        [.normal "out", .normal "feature-envy", .normal "etc", .normal "passwd"] ∧
      (written { graphDir := "out/" } "feature-envy" [emptyGraph climbingLabel]
        { files := [(["/", "etc", "passwd"], "root")] }).2.files.lookup ["/", "etc", "passwd"] =
          some "root" := by
  obtain ⟨hcomponents, -, hanalysis, -, hkept⟩ :=
    graphs_written_below "out/" "feature-envy" climbingLabel
  have hplain : Path.IsPlain "feature-envy" := ⟨by decide, by decide⟩
  refine ⟨?_, hkept _ _ _ _ rfl (by decide +kernel)⟩
  rw [hcomponents, hanalysis hplain]
  decide +kernel

end Program

end Cochange
