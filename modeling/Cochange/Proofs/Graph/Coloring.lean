import Cochange.Graph.Coloring
import Cochange.Proofs.Graph.Numbers

/-!
# The colors of nodes

A graph that is colored by groups has a color for each of its labels and for nothing else. The color
of a label is the position of the last group that holds it, counted from one, and zero if none
does (`color?_ofGroups`, `lastGroup_eq`, `lastGroup_eq_zero`).
-/

namespace Cochange

namespace ColoredGraph

variable {ω : Type} {label : String}

/-- The position of the last group that holds a label, counted from one; zero if none does. -/
def lastGroup (groups : List (List String)) (label : String) : Nat :=
  groups.zipIdx.foldl (fun n group => if label ∈ group.1 then group.2 + 1 else n) 0

/-- A further group takes its labels from the earlier ones. -/
theorem lastGroup_concat (groups : List (List String)) (group : List String) (label : String) :
    lastGroup (groups ++ [group]) label =
      if label ∈ group then groups.length + 1 else lastGroup groups label := by
  unfold lastGroup
  rw [List.zipIdx_append, List.foldl_append]
  simp only [List.zipIdx_singleton, List.foldl_cons, List.foldl_nil, Nat.zero_add]

/-- Where the last group stands that holds a label. -/
theorem lastGroup_eq {groups : List (List String)} {k : Nat} {group : List String}
    (hk : groups[k]? = some group) (hmem : label ∈ group)
    (hlast : ∀ (l : Nat) group', k < l → groups[l]? = some group' → label ∉ group') :
    lastGroup groups label = k + 1 := by
  induction groups using List.reverseRecOn with
  | nil => cases hk
  | append_singleton groups last ih =>
    rw [lastGroup_concat]
    rcases Nat.lt_or_ge k groups.length with hlt | hge
    · rw [if_neg (hlast groups.length last hlt List.getElem?_concat_length)]
      rw [List.getElem?_append_left hlt] at hk
      refine ih hk fun l group' hl hgroup => hlast l group' hl ?_
      rw [List.getElem?_append_left (List.getElem?_eq_some_iff.mp hgroup).1]
      exact hgroup
    · -- the group is the last of all
      have hlen := (List.getElem?_eq_some_iff.mp hk).1
      rw [List.length_append, List.length_singleton] at hlen
      obtain rfl : k = groups.length := by omega
      rw [List.getElem?_concat_length] at hk
      rw [if_pos (Option.some.inj hk ▸ hmem)]

/-- What is in no group has no position. -/
theorem lastGroup_eq_zero {groups : List (List String)} (h : ∀ group ∈ groups, label ∉ group) :
    lastGroup groups label = 0 := by
  induction groups using List.reverseRecOn with
  | nil => rfl
  | append_singleton groups last ih =>
    obtain ⟨hgroups, hlast⟩ := List.forall_mem_append.mp h
    rw [lastGroup_concat, if_neg (hlast last List.mem_cons_self), ih hgroups]

/-- A group gives its color to those of its labels that are in the graph. -/
theorem getElem?_foldl_paint (group : List String) (n : Nat) :
    ∀ colors : Std.ExtTreeMap String Nat,
      (group.foldl (fun colors l => if colors.contains l then colors.insert l n else colors)
        colors)[label]? =
        if label ∈ group ∧ colors[label]?.isSome then some n else colors[label]? := by
  induction group with
  | nil => simp
  | cons l group ih =>
    intro colors
    have hfirst : (if colors.contains l then colors.insert l n else colors)[label]? =
        if label = l ∧ colors[label]?.isSome then some n else colors[label]? := by
      rw [Std.ExtTreeMap.contains_eq_isSome_getElem?]
      by_cases hin : colors[l]?.isSome = true
      · rw [if_pos hin, Std.ExtTreeMap.getElem?_insert]
        by_cases hl : label = l
        · rw [if_pos (by simp [hl]), if_pos ⟨hl, hl ▸ hin⟩]
        · have hcompare : ¬compare l label = .eq := fun h => hl (Std.compare_eq_iff_eq.mp h).symm
          rw [if_neg hcompare, if_neg fun h : label = l ∧ _ => hl h.1]
      · rw [if_neg hin, if_neg fun h : label = l ∧ colors[label]?.isSome => hin (h.1 ▸ h.2)]
    rw [List.foldl_cons, ih, hfirst]
    -- a label that has a color keeps having one
    cases colors[label]? with
    | none => simp
    | some k => by_cases hl : label = l <;> by_cases hg : label ∈ group <;> simp [hl, hg]

/-- The color of a label is the position of the last group that holds it; what is no label has no
color. -/
theorem color?_ofGroups (g : Graph ω) (groups : List (List String)) (label : String) :
    (ofGroups g groups).color? label =
      if label ∈ g.labels then some (lastGroup groups label) else none := by
  unfold color? ofGroups
  dsimp only
  induction groups using List.reverseRecOn with
  | nil => exact Graph.getElem?_uniform g 0 label
  | append_singleton groups last ih =>
    rw [List.zipIdx_append, List.foldl_append, lastGroup_concat]
    simp only [List.zipIdx_singleton, List.foldl_cons, List.foldl_nil, Nat.zero_add]
    rw [getElem?_foldl_paint, ih]
    by_cases hl : label ∈ g.labels
    · by_cases hlast : label ∈ last <;> simp [hl, hlast]
    · simp [hl]

end ColoredGraph

end Cochange
