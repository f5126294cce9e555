import Cochange.Language
import Cochange.Proofs.Text.Lowering

/-!
# Extensions of files

A language is registered with extensions, and asked for with paths. Both are brought into one form:
an extension loses the points in front of it, a path all but what follows the last point of its last
segment (`extension?_eq_some_iff`), and both are lowered. How an extension is written makes no
difference to this, as far as leading points and the letters of ASCII go (`lowercase_bare`).

So a language covers the files that end in a point and one of its extensions, as long as there is no
point in the extension itself. What follows the last point of a path never has one: a language for
`d.ts` alone covers no file at all, not even `a.d.ts` (`not_covers_inner_point`).
-/

namespace Cochange

namespace Language

/-! ## The last separator -/

theorem afterLast?_append {sep : Char} {t : List Char} (ht : sep ∉ t) (s : List Char) :
    afterLast? sep (s ++ sep :: t) = some t := by
  have hreverse : (s ++ sep :: t).reverse = t.reverse ++ sep :: s.reverse := by simp
  have hbehind : ∀ c ∈ t.reverse, decide (c ≠ sep) = true := fun c hc =>
    decide_eq_true fun h => ht (h ▸ List.mem_reverse.mp hc)
  unfold afterLast?
  rw [if_pos (by simp), hreverse, List.takeWhile_append_of_pos hbehind,
    List.takeWhile_cons_of_neg (by simp), List.append_nil, List.reverse_reverse]

theorem afterLast?_eq_none {sep : Char} {cs : List Char} (h : sep ∉ cs) :
    afterLast? sep cs = none :=
  if_neg h

/-- A text with a separator is cut at the last one. -/
theorem exists_last {sep : Char} {cs : List Char} (h : sep ∈ cs) :
    ∃ s t, cs = s ++ sep :: t ∧ sep ∉ t := by
  obtain ⟨t, s, hcut, ht⟩ := List.eq_append_cons_of_mem (List.mem_reverse.mpr h)
  refine ⟨s.reverse, t.reverse, ?_, fun hmem => ht (List.mem_reverse.mp hmem)⟩
  rw [← List.reverse_reverse cs, hcut]
  simp

/-- What follows the last separator is the end of the text that holds none and stands behind one. -/
theorem afterLast?_eq_some_iff {sep : Char} {cs t : List Char} :
    afterLast? sep cs = some t ↔ ∃ s, cs = s ++ sep :: t ∧ sep ∉ t := by
  constructor
  · intro h
    by_cases hmem : sep ∈ cs
    · obtain ⟨s, u, rfl, hu⟩ := exists_last hmem
      rw [afterLast?_append hu] at h
      obtain rfl := Option.some.inj h
      exact ⟨s, rfl, hu⟩
    · rw [afterLast?_eq_none hmem] at h
      cases h
  · rintro ⟨s, rfl, ht⟩
    exact afterLast?_append ht s

/-- What is put behind a text without a new separator is put behind its last part. -/
theorem getD_afterLast?_append {sep : Char} {t : List Char} (ht : sep ∉ t) (s : List Char) :
    (afterLast? sep (s ++ t)).getD (s ++ t) = (afterLast? sep s).getD s ++ t := by
  by_cases hs : sep ∈ s
  · obtain ⟨a, b, rfl, hb⟩ := exists_last hs
    have hbt : sep ∉ b ++ t := fun h => (List.mem_append.mp h).elim hb ht
    rw [List.append_assoc, List.cons_append, afterLast?_append hbt, afterLast?_append hb]
    rfl
  · have hst : sep ∉ s ++ t := fun h => (List.mem_append.mp h).elim hs ht
    rw [afterLast?_eq_none hst, afterLast?_eq_none hs]
    rfl

/-- The last part of a text stands at its end and has no separator. -/
theorem exists_append_getD_afterLast? (sep : Char) (cs : List Char) :
    (∃ s, cs = s ++ (afterLast? sep cs).getD cs) ∧ sep ∉ (afterLast? sep cs).getD cs := by
  by_cases h : sep ∈ cs
  · obtain ⟨s, t, rfl, ht⟩ := exists_last h
    rw [afterLast?_append ht]
    exact ⟨⟨s ++ [sep], by simp⟩, ht⟩
  · rw [afterLast?_eq_none h]
    exact ⟨⟨[], rfl⟩, h⟩

/-- The extension of a path stands at its end, behind a point, and holds neither points nor
slashes. -/
theorem extension?_eq_some_iff {path ext : String} :
    extension? path = some ext ↔
      (∃ front, path = front ++ "." ++ ext) ∧ '.' ∉ ext.toList ∧ '/' ∉ ext.toList := by
  unfold extension?
  dsimp only
  rw [Option.map_eq_some_iff]
  constructor
  · rintro ⟨t, ht, rfl⟩
    obtain ⟨s, hsegment, hpoint⟩ := afterLast?_eq_some_iff.mp ht
    obtain ⟨⟨front, hpath⟩, hslash⟩ := exists_append_getD_afterLast? '/' path.toList
    rw [hsegment] at hpath hslash
    rw [String.toList_ofList]
    refine ⟨⟨String.ofList (front ++ s), ?_⟩, hpoint, fun h => hslash ?_⟩
    · rw [← String.toList_inj, hpath]
      simp
    · exact List.mem_append_right s (List.mem_cons_of_mem '.' h)
  · rintro ⟨⟨front, rfl⟩, hpoint, hslash⟩
    refine ⟨ext.toList, ?_, String.ofList_toList⟩
    have hlist : (front ++ "." ++ ext).toList = front.toList ++ '.' :: ext.toList := by
      simp
    have hbehind : '/' ∉ '.' :: ext.toList := fun h =>
      hslash ((List.mem_cons.mp h).resolve_left (by decide))
    rw [hlist, getD_afterLast?_append hbehind, afterLast?_append hpoint]

/-! ## How extensions are written -/

/-- An extension without the points in front of it. -/
def bare (e : String) : String :=
  String.ofList (e.toList.dropWhile (· = '.'))

/-- A language covers the files that have one of its extensions, in lower case. -/
theorem covers_ofExtensions_iff {name : String} {extensions : List String} {tracked : List NodeKind}
    {path : String} :
    (ofExtensions name extensions tracked).covers path = true ↔
      ∃ ext, extension? path = some ext ∧
        ∃ e ∈ extensions, Text.lowercase (bare e) = Text.lowercase ext := by
  show hasExtension (extensions.map storedExtension) path = true ↔ _
  unfold hasExtension
  cases extension? path with
  | none => simp
  | some ext => simp [storedExtension, bare]

/-- A language of extensions is another one than the fallback: it does not cover files without an
extension. -/
theorem ofExtensions_ne_fallback (name : String) (extensions : List String)
    (tracked : List NodeKind) : ofExtensions name extensions tracked ≠ fallback := by
  intro hsame
  have hcovers : (ofExtensions name extensions tracked).covers "" = true := by
    rw [hsame]
    rfl
  obtain ⟨ext, hext, -⟩ := covers_ofExtensions_iff.mp hcovers
  have hnone : extension? "" = none := by decide
  rw [hnone] at hext
  cases hext

/-- A way to write an extension: with points in front of it, and with its ASCII letters in any
case. -/
def Writes (e written : String) : Prop :=
  ∃ n, written.toList.map Char.toLower =
    List.replicate n '.' ++ e.toList.map Char.toLower

variable {e written : String}

/-- However an extension is written, it comes to the same. -/
theorem lowercase_bare (h : Writes e written) (he : e.toList.head? ≠ some '.') :
    Text.lowercase (bare written) = Text.lowercase e := by
  obtain ⟨n, hn⟩ := h
  have hpoint : (fun c => decide (c = '.')) ∘ Char.toLower = fun c => decide (c = '.') :=
    funext fun c => decide_eq_decide.mpr (Text.loweredAlike c).isPoint
  refine Text.lowercase_congr ?_
  unfold bare
  rw [String.toList_ofList, ← hpoint, ← List.dropWhile_map, hn, List.dropWhile_append,
    List.dropWhile_replicate, if_pos (by rfl)]
  cases hlist : e.toList with
  | nil => rfl
  | cons c cs =>
    rw [hlist, List.head?_cons, Ne, Option.some.injEq] at he
    rw [List.map_cons, List.dropWhile_cons_of_neg]
    rw [decide_eq_true_iff, (Text.loweredAlike c).isPoint]
    exact he

/-- A language with an extension without points covers what ends in a point and the extension. -/
theorem covers_written {extensions : List String} (name : String) (tracked : List NodeKind)
    (hwritten : written ∈ extensions) (h : Writes e written) (hpoint : '.' ∉ e.toList)
    (hslash : '/' ∉ e.toList) (front : String) :
    (ofExtensions name extensions tracked).covers (front ++ "." ++ e) = true := by
  have hhead : e.toList.head? ≠ some '.' := fun hhead => hpoint (List.mem_of_mem_head? hhead)
  exact covers_ofExtensions_iff.mpr ⟨e, extension?_eq_some_iff.mpr ⟨⟨front, rfl⟩, hpoint, hslash⟩,
    written, hwritten, lowercase_bare h hhead⟩

/-- A language whose only extension has a point within covers nothing. -/
theorem not_covers_inner_point (name : String) (tracked : List NodeKind) (h : Writes e written)
    (hhead : e.toList.head? ≠ some '.') (hpoint : '.' ∈ e.toList) (path : String) :
    (ofExtensions name [written] tracked).covers path = false := by
  rw [Bool.eq_false_iff]
  intro hcovers
  obtain ⟨ext, hext, e', he', hlower⟩ := covers_ofExtensions_iff.mp hcovers
  obtain rfl := List.mem_singleton.mp he'
  rw [lowercase_bare h hhead] at hlower
  -- the point is found in the lower-case form as well
  have hlist := String.ofList_inj.mp hlower
  refine (extension?_eq_some_iff.mp hext).2.1 ?_
  rw [← Text.point_mem_lowerAfter_iff, ← hlist, Text.point_mem_lowerAfter_iff]
  exact hpoint

end Language

namespace Languages

open Cochange.Language

/-- With one language registered, files are of that language or of none. -/
theorem resolve_singleton (l : Language) (path : String) :
    resolve ⟨[l]⟩ path = if l.covers path then l else .fallback := by
  unfold resolve
  cases h : l.covers path <;> simp [h]

/-- A language with an extension, however that is written, covers the files that end in a point and
the extension, and is what they resolve to, if the extension has no point within. If it has one and
the language has no other extension, then all files resolve to the fallback. -/
theorem resolve_written (name : String) (tracked : List NodeKind) {e written : String}
    (h : Writes e written) (hhead : e.toList.head? ≠ some '.') (hslash : '/' ∉ e.toList) :
    ('.' ∉ e.toList → ∀ extensions, written ∈ extensions → ∀ directory stem : String,
      (ofExtensions name extensions tracked).covers (directory ++ stem ++ "." ++ e) = true ∧
        resolve ⟨[ofExtensions name extensions tracked]⟩ (directory ++ stem ++ "." ++ e) =
          ofExtensions name extensions tracked ∧
        ofExtensions name extensions tracked ≠ .fallback) ∧
    ('.' ∈ e.toList → ∀ path,
      (ofExtensions name [written] tracked).covers path = false ∧
        resolve ⟨[ofExtensions name [written] tracked]⟩ path = .fallback) := by
  refine ⟨fun hpoint extensions hwritten directory stem => ?_, fun hpoint path => ?_⟩
  · have hcovers := covers_written name tracked hwritten h hpoint hslash (directory ++ stem)
    refine ⟨hcovers, ?_, ofExtensions_ne_fallback name extensions tracked⟩
    rw [resolve_singleton, if_pos hcovers]
  · have hcovers := not_covers_inner_point name tracked h hhead hpoint path
    rw [resolve_singleton, hcovers]
    exact ⟨rfl, rfl⟩

/-- Points elsewhere in the path are no hindrance. -/
theorem resolve_written_scattered :
    Writes "Kts" "..kTS" ∧
      (resolve ⟨[ofExtensions "kotlin" ["kt", "..kTS"] [.var]]⟩ "src.d/build.gradle.Kts").name =
        "kotlin" ∧
      (resolve ⟨[ofExtensions "typings" [".D.ts"] [.var]]⟩ "src.d/a.d.ts").name = "default" := by
  have hkotlin : Writes "Kts" "..kTS" := ⟨2, by decide⟩
  have htypings : Writes "d.ts" ".D.ts" := ⟨1, by decide⟩
  have hcovered := (resolve_written "kotlin" [.var] hkotlin (by decide) (by decide)).1 (by decide)
    ["kt", "..kTS"] (by decide) "src.d/" "build.gradle"
  have hlost := (resolve_written "typings" [.var] htypings (by decide) (by decide)).2 (by decide)
    "src.d/a.d.ts"
  exact ⟨hkotlin, congrArg Language.name hcovered.2.1, congrArg Language.name hlost.2⟩

/-- Not all files that end in a point and an extension of a language are covered by it. -/
theorem inner_point_not_covered :
    ¬∀ (name : String) (tracked : List NodeKind) (e directory stem : String),
      e ≠ "" → e.toList.head? ≠ some '.' → '/' ∉ e.toList → stem ≠ "" → '/' ∉ stem.toList →
        (ofExtensions name [e] tracked).covers (directory ++ stem ++ "." ++ e) = true := by
  intro h
  have hcovers := h "typings" [.var] "d.ts" "src/" "a" (by decide) (by decide) (by decide)
    (by decide) (by decide)
  exact absurd hcovers (by decide +kernel)

end Languages

end Cochange
