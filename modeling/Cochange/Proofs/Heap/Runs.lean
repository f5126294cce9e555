import Cochange.Proofs.Density.Exact
import Cochange.Proofs.Heap.Checked

/-!
# Any number of requests

A heap is asked for its first item, or to change a key, any number of times and in any order. What
it stands for is the keys of the items in it (`contents`), and this alone decides the answers
(`Served`): an item is taken out if no other one comes before it, and a key is changed if its item
is there. Each request keeps the heap valid and is served as this says (`perform_spec`), and so are
all of them (`run_served`).

Keys may be of any kind that has an order, doubles among them. What is asked of a changed key is
that the comparison that decides which way its item moves agrees with the order of the old and the
new key (`Admissible`).

The whole is summed up in `requests_served`: which items are still there, in what order the rest
is taken out, and that no access to the heap was out of range.
-/

namespace Cochange

namespace MinHeap

/-- What a heap can be asked to do. -/
inductive Request (ω : Type) where
  | pop
  | update (item : Nat) (key : ω)

variable {ω : Type}

/-! ## What is asked of the contents -/

/-- The keys of the items that are there. -/
abbrev Contents (ω : Type) :=
  Nat → Option ω

section Contents

variable [Weight ω]

/-- Whether a request is answered and the contents changed as they should be. Only an item that
was taken out is an answer. -/
def Served (s : Contents ω) : Request ω → Option (Nat × ω) → Contents ω → Prop
  | .pop, none, s' => (∀ x, s x = none) ∧ s' = s
  | .pop, some (x, a), s' =>
    s x = some a ∧ (∀ y b, s y = some b → y ≠ x → rankOrder (a, x) (b, y) = .lt) ∧
      s' = fun y => if y = x then none else s y
  | .update x a, answer, s' =>
    answer = none ∧ s' = fun y => if y = x then (s x).map fun _ => a else s y

/-- Whether requests are served one after the other. -/
inductive ServedAll : Contents ω → List (Request ω) → List (Option (Nat × ω)) → Contents ω → Prop
  | nil (s : Contents ω) : ServedAll s [] [] s
  | cons {s t u : Contents ω} {r : Request ω} {rs : List (Request ω)} {answer : Option (Nat × ω)}
      {answers : List (Option (Nat × ω))} (first : Served s r answer t)
      (rest : ServedAll t rs answers u) : ServedAll s (r :: rs) (answer :: answers) u

/-- A request takes out the item it answers with, and no other. -/
theorem Served.isSome_iff {s t : Contents ω} {r : Request ω} {answer : Option (Nat × ω)}
    (h : Served s r answer t) (x : Nat) :
    (t x).isSome = true ↔ (s x).isSome = true ∧ ∀ a, some (x, a) ≠ answer := by
  cases r with
  | pop =>
    cases answer with
    | none =>
      rw [h.2]
      exact (and_iff_left fun a => Option.some_ne_none _).symm
    | some first =>
      obtain ⟨y, b⟩ := first
      rw [h.2.2]
      dsimp only
      by_cases hxy : x = y
      · rw [if_pos hxy, hxy]
        exact ⟨fun h => absurd h (by simp), fun h => absurd rfl (h.2 b)⟩
      · rw [if_neg hxy]
        refine (and_iff_left fun a he => hxy ?_).symm
        exact (Prod.mk.inj (Option.some.inj he)).1
  | update y b =>
    rw [h.1, h.2]
    dsimp only
    have hkept : (if x = y then (s y).map fun _ => b else s x).isSome = (s x).isSome := by
      split
      next hxy => rw [Option.isSome_map, hxy]
      next => rfl
    rw [hkept]
    exact (and_iff_left fun a => Option.some_ne_none _).symm

/-- What is there in the end was there in the beginning and was not taken out. -/
theorem ServedAll.isSome_iff {s t : Contents ω} {rs : List (Request ω)}
    {answers : List (Option (Nat × ω))} (h : ServedAll s rs answers t) (x : Nat) :
    (t x).isSome = true ↔ (s x).isSome = true ∧ ∀ a, some (x, a) ∉ answers := by
  induction h with
  | nil s => exact (and_iff_left fun a => List.not_mem_nil).symm
  | cons first rest ih =>
    rw [ih, first.isSome_iff x, and_assoc, ← forall_and]
    simp only [List.mem_cons, not_or, ne_eq]

end Contents

/-! ## The contents of a heap -/

section Heap

variable {h : MinHeap ω}

/-- The keys of the items in a heap. -/
def contents (h : MinHeap ω) : Contents ω :=
  fun x => if h.contains x then h.key? x else none

theorem contents_of_not_contains {x : Nat} (hx : h.contains x = false) : h.contents x = none := by
  rw [contents, hx]
  rfl

theorem contents_of_contains {x : Nat} (hx : h.contains x = true) : h.contents x = h.key? x := by
  rw [contents, if_pos hx]

theorem Indexed.contents_isSome (hi : h.Indexed) (x : Nat) :
    (h.contents x).isSome = h.contains x := by
  cases hx : h.contains x with
  | false => rw [contents_of_not_contains hx]; rfl
  | true =>
    obtain ⟨a, ha⟩ := hi.key?_isSome hx
    rw [contents_of_contains hx, ha]
    rfl

theorem Indexed.contains_of_contents (hi : h.Indexed) {x : Nat} {a : ω}
    (hx : h.contents x = some a) : h.contains x = true ∧ h.key? x = some a := by
  have hc : h.contains x = true := by
    rw [← hi.contents_isSome, hx]
    rfl
  rw [contents_of_contains hc] at hx
  exact ⟨hc, hx⟩

theorem Indexed.contents_of_empty (hi : h.Indexed) (hs : h.items.size = 0) (x : Nat) :
    h.contents x = none := by
  refine contents_of_not_contains ?_
  by_contra hx
  obtain ⟨pos, hpos, -⟩ := hi.item_of_contains (Bool.eq_true_of_not_eq_false hx)
  omega

/-- The same items with the same keys have the same contents. -/
theorem Rearranged.contents {h' : MinHeap ω} (hr : Rearranged h h') : h'.contents = h.contents := by
  funext x
  unfold MinHeap.contents key?
  rw [hr.contains, hr.keys]

/-- Taking an item out leaves the keys of the others. -/
theorem Removed.contents {h' : MinHeap ω} {x : Nat} (hout : Removed h x h') :
    h'.contents = fun y => if y = x then none else h.contents y := by
  funext y
  unfold MinHeap.contents key?
  rw [hout.contains, hout.keys]
  by_cases hy : y = x
  · rw [if_pos hy, decide_eq_false (not_not_intro hy), Bool.and_false]
    rfl
  · rw [if_neg hy, decide_eq_true hy, Bool.and_true]

/-- An update changes the key of its item, if that is there, and no other. -/
theorem Indexed.contents_update [Weight ω] (hi : h.Indexed) (x : Nat) (a : ω) :
    (h.update x a).contents = fun y => if y = x then (h.contents x).map fun _ => a else
      h.contents y := by
  funext y
  cases hx : h.contains x with
  | false =>
    rw [update_of_not_contains hx, contents_of_not_contains hx]
    split
    next hy => rw [hy, contents_of_not_contains hx]; rfl
    next => rfl
  | true =>
    rw [(update_rearranged hi hx a).contents, contents_of_contains hx]
    unfold MinHeap.contents
    rw [key?_setKey]
    by_cases hy : y = x
    · rw [if_pos hy, if_pos hy, hy]
      exact if_pos hx
    · rw [if_neg hy, if_neg hy]
      rfl

end Heap

/-! ## What the heap does -/

variable [Weight ω] {h : MinHeap ω} {r : Request ω}

/-- The answer to a request that takes out an item, and the heap that is left. -/
def afterPop (h : MinHeap ω) :
    Option ((Nat × ω) × MinHeap ω) → Option (Nat × ω) × MinHeap ω
  | none => (none, h)
  | some (first, h') => (some first, h')

/-- The answer to a request and the heap after it. -/
def perform (h : MinHeap ω) : Request ω → Option (Nat × ω) × MinHeap ω
  | .pop => h.afterPop h.pop?
  | .update item key => (none, h.update item key)

/-- The answers to requests, one after the other, and the heap after them. -/
def run : List (Request ω) → MinHeap ω → List (Option (Nat × ω)) × MinHeap ω
  | [], h => ([], h)
  | r :: rs, h =>
    let step := h.perform r
    let rest := run rs step.2
    (step.1 :: rest.1, rest.2)

/-- Whether an update gives an item a key that can be compared with the one that it has. -/
def Admits (h : MinHeap ω) (r : Request ω) : Prop :=
  ∀ x a b, r = .update x a → h.contents x = some b → Comparable a b

/-- Whether every update does, in the heap that it changes. -/
def Admissible : List (Request ω) → MinHeap ω → Prop
  | [], _ => True
  | r :: rs, h => h.Admits r ∧ Admissible rs (h.perform r).2

/-! ## Accesses -/

/-- A request, as far as no access is out of range. -/
def checkedPerform (h : MinHeap ω) : Request ω → Option (Option (Nat × ω) × MinHeap ω)
  | .pop => h.checkedPop.map h.afterPop
  | .update item key => (h.checkedUpdate item key).map fun h' => (none, h')

/-- Requests, one after the other, as far as no access is out of range. -/
def checkedRun : List (Request ω) → MinHeap ω → Option (List (Option (Nat × ω)) × MinHeap ω)
  | [], h => some ([], h)
  | r :: rs, h => do
    let step ← h.checkedPerform r
    let rest ← checkedRun rs step.2
    return (step.1 :: rest.1, rest.2)

/-- A request is served without a missed lookup, and leaves the heap indexed. -/
theorem checkedPerform_eq (hi : h.Indexed) (r : Request ω) :
    h.checkedPerform r = some (h.perform r) ∧ (h.perform r).2.Indexed := by
  cases r with
  | pop =>
    obtain ⟨hpop, hindexed⟩ := checkedPop_eq hi
    rw [checkedPerform, perform, hpop]
    refine ⟨rfl, ?_⟩
    cases hp : h.pop? with
    | none => exact hi
    | some popped => exact hindexed popped.1 popped.2 hp
  | update x a =>
    obtain ⟨hupdate, hindexed⟩ := checkedUpdate_eq hi x a
    rw [checkedPerform, perform, hupdate]
    exact ⟨rfl, hindexed⟩

/-- No access is out of range, however the keys are changed. -/
theorem checkedRun_eq (rs : List (Request ω)) : ∀ {h : MinHeap ω}, h.Indexed →
    checkedRun rs h = some (run rs h) ∧ (run rs h).2.Indexed := by
  induction rs with
  | nil => exact fun hi => ⟨rfl, hi⟩
  | cons r rs ih =>
    intro h hi
    obtain ⟨hstep, hindexed⟩ := checkedPerform_eq hi r
    obtain ⟨hrest, hindexed'⟩ := ih hindexed
    rw [checkedRun, hstep]
    dsimp only [Option.bind_eq_bind, Option.bind_some]
    rw [hrest]
    exact ⟨rfl, hindexed'⟩

/-! ## Draining -/

/-- Draining takes out each item once, with its key, whatever their order is. -/
theorem drainWithin_contents (fuel : Nat) : ∀ {h : MinHeap ω}, h.Indexed → h.items.size ≤ fuel →
    ((h.drainWithin fuel).map Prod.fst).Nodup ∧
      ∀ p, p ∈ h.drainWithin fuel ↔ h.contents p.1 = some p.2 := by
  have hempty : ∀ {h : MinHeap ω}, h.Indexed → h.items.size = 0 →
      (([] : List (Nat × ω)).map Prod.fst).Nodup ∧
        ∀ p, p ∈ ([] : List (Nat × ω)) ↔ h.contents p.1 = some p.2 := by
    intro h hi hs
    refine ⟨.nil, fun p => ?_⟩
    rw [hi.contents_of_empty hs]
    exact iff_of_false List.not_mem_nil (Option.some_ne_none _).symm
  induction fuel with
  | zero => exact fun hi hsize => hempty hi (Nat.le_zero.mp hsize)
  | succ fuel ih =>
    intro h hi hsize
    rw [drainWithin]
    by_cases hs : h.items.size = 0
    · rw [pop?_of_empty hs]
      exact hempty hi hs
    · obtain ⟨x, a, h', hpop, hcx, ha, hout⟩ := pop?_removed hi hs
      have hx : h.contents x = some a := (contents_of_contains hcx).trans ha
      have hsize' := hout.size
      obtain ⟨hnodup, hmem⟩ := ih hout.indexed (by omega)
      simp only [hout.contents, Option.ite_none_left_eq_some] at hmem
      rw [hpop]
      refine ⟨List.nodup_cons.mpr ⟨fun hin => ?_, hnodup⟩, fun q => ?_⟩
      · obtain ⟨q, hq, hqx⟩ := List.mem_map.mp hin
        exact ((hmem q).mp hq).1 hqx
      · rw [List.mem_cons, hmem]
        by_cases hqx : q.1 = x
        · rw [hqx, hx, or_iff_left fun h1 => h1.1 rfl, Option.some.injEq]
          exact ⟨fun he => he ▸ rfl, fun he => Prod.ext hqx he.symm⟩
        · rw [or_iff_right fun he => hqx (congrArg Prod.fst he)]
          exact and_iff_right hqx

/-- Draining lists each item of the heap once, with its key, in whatever order the heap is. -/
theorem drain_contents (hi : h.Indexed) :
    (h.drain.map Prod.fst).Nodup ∧ ∀ p, p ∈ h.drain ↔ h.contents p.1 = some p.2 :=
  drainWithin_contents h.items.size hi (Nat.le_refl _)

/-! ## Serving -/

variable [Std.TransCmp (Weight.order : ω → ω → Ordering)]

/-- The item that is taken out answers a request for the first. -/
theorem Popped.served {h' : MinHeap ω} {x : Nat} {a : ω} (hp : Popped h x a h')
    (hi : h.Indexed) : Served h.contents .pop (some (x, a)) h'.contents := by
  have hout : Removed h x h' := ⟨hp.keys, hp.size, hp.contains, hp.valid.indexed⟩
  refine ⟨(contents_of_contains hp.contained).trans hp.key, ?_, hout.contents⟩
  intro y b hy hne
  obtain ⟨hc, hb⟩ := hi.contains_of_contents hy
  rcases itemBefore_total hp.key hb (Ne.symm hne) with h1 | h1
  · exact (itemBefore_eq hp.key hb).mp h1
  · exact absurd h1 (hp.first y hc)

/-- A request keeps the heap valid and is served. -/
theorem perform_spec (hv : h.Valid) (hr : h.Admits r) :
    (h.perform r).2.Valid ∧ Served h.contents r (h.perform r).1 (h.perform r).2.contents := by
  cases r with
  | pop =>
    have hspec := pop?_spec hv
    split at hspec
    next hs =>
      have hstep : h.perform .pop = (none, h) := by rw [perform, hspec, afterPop]
      rw [hstep]
      exact ⟨hv, hv.indexed.contents_of_empty hs, rfl⟩
    next hs =>
      obtain ⟨x, a, h', hpop, hp⟩ := hspec
      have hstep : h.perform .pop = (some (x, a), h') := by rw [perform, hpop, afterPop]
      rw [hstep]
      exact ⟨hp.valid, hp.served hv.indexed⟩
  | update x a =>
    refine ⟨?_, rfl, hv.indexed.contents_update x a⟩
    show (h.update x a).Valid
    cases hx : h.contains x with
    | false =>
      rw [update_of_not_contains hx]
      exact hv
    | true =>
      obtain ⟨b, hb⟩ := hv.indexed.key?_isSome hx
      have hcontents := (contents_of_contains hx).trans hb
      exact (update_spec hv hx hb (hr x a b rfl hcontents)).2

/-- Requests, one after the other, keep the heap valid and are served. -/
theorem run_served (rs : List (Request ω)) : ∀ {h : MinHeap ω}, h.Valid → Admissible rs h →
    (run rs h).2.Valid ∧ ServedAll h.contents rs (run rs h).1 (run rs h).2.contents := by
  induction rs with
  | nil => exact fun hv _ => ⟨hv, .nil _⟩
  | cons r rs ih =>
    intro h hv hok
    obtain ⟨hvalid, hserved⟩ := perform_spec hv hok.1
    obtain ⟨hvalid', hrest⟩ := ih hvalid hok.2
    exact ⟨hvalid', .cons hserved hrest⟩

/-- Draining takes out all items in their order. -/
theorem drainWithin_sorted (fuel : Nat) : ∀ {h : MinHeap ω}, h.Valid → h.items.size ≤ fuel →
    (h.drainWithin fuel).Pairwise fun p q => rankOrder (p.2, p.1) (q.2, q.1) = .lt := by
  induction fuel with
  | zero => exact fun _ _ => .nil
  | succ fuel ih =>
    intro h hv hsize
    have hspec := pop?_spec hv
    split at hspec
    next hs =>
      rw [drainWithin, hspec]
      exact .nil
    next =>
      obtain ⟨x, a, h', hpop, hp⟩ := hspec
      obtain ⟨-, hleast, hrest⟩ := hp.served hv.indexed
      have hsize' := hp.size
      rw [drainWithin, hpop]
      refine .cons (fun q hq => ?_) (ih hp.valid (by omega))
      rw [(drainWithin_contents fuel hp.valid.indexed (by omega)).2, hrest,
        Option.ite_none_left_eq_some] at hq
      exact hleast q.1 q.2 hq.2 hq.1

/-- A valid heap is drained in order, items of equal keys by their numbers. -/
theorem drain_spec (hv : h.Valid) :
    h.drain.Pairwise (fun p q => rankOrder (p.2, p.1) (q.2, q.1) = .lt) ∧
      ∀ p, p ∈ h.drain ↔ h.contents p.1 = some p.2 :=
  ⟨drainWithin_sorted h.items.size hv (Nat.le_refl _), (drain_contents hv.indexed).2⟩

/-! ## Together -/

/-- A heap that is built has the contents that it is built from. -/
theorem contents_ofKeys (keys : Array ω) : (ofKeys keys).contents = fun x => keys[x]? := by
  obtain ⟨-, hkeys, -, hcontains⟩ := ofKeys_spec keys
  funext x
  unfold contents key?
  rw [hcontains, hkeys]
  split
  next => rfl
  next hx =>
    rw [decide_eq_true_eq] at hx
    exact (Array.getElem?_eq_none (by omega)).symm

/-- Every request to a heap that was built from keys is served: what is taken out is the first of
the items that are there, by its present key and by number among equal ones. Exactly the items
that were not taken out are still there, and draining takes out each of them once, in order.
Updates of other items change nothing. Positions and items stay inverse to each other, and no
access is out of range. -/
theorem requests_served (keys : Array ω) (rs : List (Request ω))
    (hok : Admissible rs (ofKeys keys)) :
    ∃ answers h, run rs (ofKeys keys) = (answers, h) ∧
      ServedAll (fun x => keys[x]?) rs answers h.contents ∧
      (∀ x, h.contains x = true ↔ x < keys.size ∧ ∀ a, some (x, a) ∉ answers) ∧
      (∀ x, h.contains x = false → ∀ a, h.update x a = h) ∧
      h.drain.Pairwise (fun p q => rankOrder (p.2, p.1) (q.2, q.1) = .lt) ∧
      (h.drain.map Prod.fst).Nodup ∧ (∀ p, p ∈ h.drain ↔ h.contents p.1 = some p.2) ∧
      h.Indexed ∧ (checkedOfKeys keys).bind (checkedRun rs) = some (answers, h) := by
  have hv := (ofKeys_spec keys).1
  obtain ⟨hvalid, hserved⟩ := run_served rs hv hok
  rw [contents_ofKeys] at hserved
  obtain ⟨hsorted, hmem⟩ := drain_spec hvalid
  have hthere : ∀ x, (run rs (ofKeys keys)).2.contains x = true ↔
      x < keys.size ∧ ∀ a, some (x, a) ∉ (run rs (ofKeys keys)).1 := by
    intro x
    rw [← hvalid.indexed.contents_isSome, hserved.isSome_iff]
    refine and_congr_left fun _ => ?_
    rw [isSome_getElem?]
  have hchecked : (checkedOfKeys keys).bind (checkedRun rs) = some (run rs (ofKeys keys)) := by
    rw [(checkedOfKeys_eq keys).1, Option.bind_some, (checkedRun_eq rs hv.indexed).1]
  exact ⟨_, _, rfl, hserved, hthere, fun x hx a => update_of_not_contains hx a, hsorted,
    (drain_contents hvalid.indexed).1, hmem, hvalid.indexed, hchecked⟩

/-- In exact arithmetic any key can be given to any item. -/
theorem admissible_rat (rs : List (Request Rat)) : ∀ h : MinHeap Rat, Admissible rs h := by
  induction rs with
  | nil => exact fun _ => trivial
  | cons r rs ih => exact fun h => ⟨fun _ a b _ _ => Weight.rat_comparable a b, ih _⟩

/-- Keys with a tie, and updates up and down, of an item that was taken out, and of none. -/
def sampleRequests : List (Request Rat) :=
  [.pop, .update 3 0, .update 2 5, .update 1 7, .update 9 1, .pop]

/-- The law at a heap with two equal keys, with updates of items that have gone. -/
theorem requests_served_tie :
    ∃ h, run sampleRequests (ofKeys #[2, 1, 1, 3]) =
        ([some (1, 1), none, none, none, none, some (3, 0)], h) ∧
      h.drain = [(0, 2), (2, 5)] ∧ h.contains 1 = false ∧ h.update 1 7 = h := by
  obtain ⟨answers, h, hrun, -, hcontains, hupdate, -⟩ :=
    requests_served #[2, 1, 1, 3] sampleRequests (admissible_rat _ _)
  have hanswers : (run sampleRequests (ofKeys #[2, 1, 1, 3])).1 =
      [some (1, 1), none, none, none, none, some (3, 0)] := by decide +kernel
  have hdrain : (run sampleRequests (ofKeys #[2, 1, 1, 3])).2.drain = [(0, 2), (2, 5)] := by
    decide +kernel
  rw [hrun] at hanswers hdrain
  have hout : h.contains 1 = false := by
    rw [Bool.eq_false_iff, ne_eq, hcontains]
    intro hin
    refine hin.2 1 ?_
    rw [show answers = _ from hanswers]
    exact List.mem_cons_self
  exact ⟨h, hrun.trans (Prod.ext hanswers rfl), hdrain, hout, hupdate 1 hout 7⟩

end MinHeap

end Cochange
