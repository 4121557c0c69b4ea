import AdfMarkdown.Token.Inline
import Mathlib.Data.List.Chain

/-! # Neighbouring runs made one

Runs are merged from left to right, each into the last node done. Merging is associative, so the
result is as well the first node put in front of what the others give. From this equation follow
the laws by induction: no two neighbours could still be merged, nodes of one sort stay of that
sort, and either part of a list may be merged before the whole.
-/

namespace AdfMarkdown.Node

def runMarks? : Node → Option (List Mark)
  | known .text _ _ _ marks => some marks
  | _ => none

def isText (x : Node) : Bool := x.runMarks?.isSome

def SameMarks (x y : Node) : Prop :=
  ∃ marks, x.runMarks? = some marks ∧ y.runMarks? = some marks

theorem merge?_eq_none_iff {x y : Node} : merge? x y = none ↔ ¬ SameMarks x y := by
  unfold merge? SameMarks
  split
  · next marks _ _ _ marks' =>
    simp only [runMarks?, Option.some.injEq, exists_eq_left']
    split <;> simp_all [eq_comm]
  · next hxy =>
    simp only [true_iff]
    rintro ⟨marks, hx, hy⟩
    unfold runMarks? at hx hy
    split at hx <;> split at hy <;> simp_all

theorem merge?_eq_some_iff {x y z : Node} :
    merge? x y = some z ↔ ∃ content attrs text marks content' attrs' text',
      x = known .text content attrs text marks ∧ y = known .text content' attrs' text' marks ∧
        z = known .text content attrs (some (text.getD "" ++ text'.getD "")) marks := by
  constructor
  · intro h
    unfold merge? at h
    split at h
    · next content attrs text marks content' attrs' text' marks' =>
      split at h
      · next hm =>
        subst hm
        exact ⟨content, attrs, text, marks, content', attrs', text', rfl, rfl,
          (Option.some.inj h).symm⟩
      · cases h
    · cases h
  · rintro ⟨content, attrs, text, marks, content', attrs', text', rfl, rfl, rfl⟩
    simp [merge?]

theorem runMarks?_of_merge? {x y z : Node} (h : merge? x y = some z) :
    z.runMarks? = x.runMarks? ∧ z.runMarks? = y.runMarks? := by
  obtain ⟨c, a, t, m, c', a', t', rfl, rfl, rfl⟩ := merge?_eq_some_iff.mp h
  exact ⟨rfl, rfl⟩

theorem isText_of_merge? {x y z : Node} (h : merge? x y = some z) :
    x.isText = true ∧ y.isText = true ∧ z.isText = true := by
  obtain ⟨c, a, t, m, c', a', t', rfl, rfl, rfl⟩ := merge?_eq_some_iff.mp h
  exact ⟨rfl, rfl, rfl⟩

/-- A node in front, made one with the first if the two make one run. -/
def consMerged (x : Node) : List Node → List Node
  | [] => [x]
  | y :: ys => match merge? x y with
    | some z => z :: ys
    | none => x :: y :: ys

theorem consMerged_of_some {x y z : Node} (h : merge? x y = some z) (ys : List Node) :
    consMerged x (y :: ys) = z :: ys := by
  rw [consMerged, h]

theorem consMerged_of_none {x y : Node} (h : merge? x y = none) (ys : List Node) :
    consMerged x (y :: ys) = x :: y :: ys := by
  rw [consMerged, h]

theorem consMerged_consMerged_of_some {x y z : Node} (h : merge? x y = some z) (xs : List Node) :
    consMerged x (consMerged y xs) = consMerged z xs := by
  cases xs with
  | nil => exact consMerged_of_some h []
  | cons w ws =>
    cases hyw : merge? y w with
    | some v =>
      obtain ⟨c, a, t, m, c', a', t', rfl, rfl, rfl⟩ := merge?_eq_some_iff.mp h
      obtain ⟨_, _, _, _, c'', a'', t'', he, rfl, rfl⟩ := merge?_eq_some_iff.mp hyw
      cases he
      rw [consMerged_of_some hyw]
      simp [consMerged, merge?, String.append_assoc]
    | none =>
      have hzw : merge? z w = none := by
        rw [merge?_eq_none_iff, SameMarks, (runMarks?_of_merge? h).2]
        exact merge?_eq_none_iff.mp hyw
      rw [consMerged_of_none hyw, consMerged_of_some h, consMerged_of_none hzw]

theorem consMerged_consMerged_of_none {x y : Node} (h : merge? x y = none) (xs : List Node) :
    consMerged x (consMerged y xs) = x :: consMerged y xs := by
  cases xs with
  | nil => exact consMerged_of_none h []
  | cons w ws =>
    cases hyw : merge? y w with
    | some v =>
      have hxv : merge? x v = none := by
        rw [merge?_eq_none_iff, SameMarks, (runMarks?_of_merge? hyw).1]
        exact merge?_eq_none_iff.mp h
      rw [consMerged_of_some hyw, consMerged_of_none hxv]
    | none => rw [consMerged_of_none hyw, consMerged_of_none h]

/-- The nodes below the last one done are never touched again. -/
theorem foldl_pushMerged_cons (x : Node) (done xs : List Node) :
    xs.foldl pushMerged (x :: done) = xs.foldl pushMerged [x] ++ done := by
  induction xs generalizing x done with
  | nil => rfl
  | cons y ys ih =>
    simp only [List.foldl_cons, pushMerged]
    cases hxy : merge? x y with
    | some z => exact ih z done
    | none => rw [ih y (x :: done), ih y [x], List.append_assoc]; rfl

@[simp] theorem consolidate_nil : consolidate [] = [] := rfl

theorem consolidate_cons (x : Node) (xs : List Node) :
    consolidate (x :: xs) = consMerged x (consolidate xs) := by
  induction xs generalizing x with
  | nil => rfl
  | cons y ys ih =>
    have hxs : consolidate (x :: y :: ys) = (ys.foldl pushMerged (pushMerged [x] y)).reverse := rfl
    -- The fold merges y into x or leaves x done; the equation at y settles what follows.
    rw [ih y, hxs, pushMerged]
    cases hxy : merge? x y with
    | some z => rw [consMerged_consMerged_of_some hxy, ← ih z]; rfl
    | none =>
      rw [consMerged_consMerged_of_none hxy, ← ih y, foldl_pushMerged_cons, List.reverse_append]
      rfl

theorem isChain_consolidate (xs : List Node) :
    (consolidate xs).IsChain fun x y => ¬ SameMarks x y := by
  induction xs with
  | nil => exact .nil
  | cons x xs ih =>
    rw [consolidate_cons]
    cases hxs : consolidate xs with
    | nil => exact .singleton x
    | cons y ys =>
      rw [hxs] at ih
      cases hxy : merge? x y with
      | some z =>
        rw [consMerged_of_some hxy]
        cases ys with
        | nil => exact .singleton z
        | cons w ws =>
          rw [List.isChain_cons_cons] at ih ⊢
          refine ⟨?_, ih.2⟩
          rw [SameMarks, (runMarks?_of_merge? hxy).2]
          exact ih.1
      | none =>
        rw [consMerged_of_none hxy]
        exact ih.cons_cons (merge?_eq_none_iff.mp hxy)

/-- A list in which no two neighbours could be made one stays as it is, and no other does. -/
theorem consolidate_eq_self_iff {xs : List Node} :
    consolidate xs = xs ↔ xs.IsChain fun x y => ¬ SameMarks x y := by
  constructor
  · intro h
    rw [← h]
    exact isChain_consolidate xs
  · intro h
    induction xs with
    | nil => rfl
    | cons x xs ih =>
      rw [consolidate_cons, ih h.tail]
      cases xs with
      | nil => rfl
      | cons y ys =>
        exact consMerged_of_none (merge?_eq_none_iff.mpr (List.isChain_cons_cons.mp h).1) ys

theorem consolidate_idem (xs : List Node) : consolidate (consolidate xs) = consolidate xs :=
  consolidate_eq_self_iff.mpr (isChain_consolidate xs)

section Cuts

theorem consolidate_append (xs ys : List Node) :
    consolidate (xs ++ ys) = xs.foldr consMerged (consolidate ys) := by
  induction xs with
  | nil => rfl
  | cons x xs ih => rw [List.cons_append, consolidate_cons, ih, List.foldr_cons]

/-- It does not matter whether a node meets the first of the others before or after these are put
in front. -/
theorem foldr_consMerged_consMerged (x : Node) (xs done : List Node) :
    (consMerged x xs).foldr consMerged done = consMerged x (xs.foldr consMerged done) := by
  cases xs with
  | nil => rfl
  | cons y ys =>
    cases hxy : merge? x y with
    | some z =>
      rw [consMerged_of_some hxy, List.foldr_cons, List.foldr_cons,
        consMerged_consMerged_of_some hxy]
    | none => rw [consMerged_of_none hxy, List.foldr_cons]

theorem foldr_consMerged_consolidate (xs done : List Node) :
    (consolidate xs).foldr consMerged done = xs.foldr consMerged done := by
  induction xs with
  | nil => rfl
  | cons x xs ih => rw [consolidate_cons, foldr_consMerged_consMerged, ih, List.foldr_cons]

theorem consolidate_append_left (xs ys : List Node) :
    consolidate (consolidate xs ++ ys) = consolidate (xs ++ ys) := by
  rw [consolidate_append, foldr_consMerged_consolidate, ← consolidate_append]

theorem consolidate_append_right (xs ys : List Node) :
    consolidate (xs ++ consolidate ys) = consolidate (xs ++ ys) := by
  rw [consolidate_append, consolidate_idem, ← consolidate_append]

end Cuts

/-- What does not tell one run from the two that make it, and depends on the nodes behind another by
its own value there, is the same after consolidation. -/
theorem apply_consolidate {β : Type*} {f : List Node → β}
    (hmerge : ∀ x y z xs, merge? x y = some z → f (z :: xs) = f (x :: y :: xs))
    (hcons : ∀ x xs ys, f xs = f ys → f (x :: xs) = f (x :: ys)) (xs : List Node) :
    f (consolidate xs) = f xs := by
  induction xs with
  | nil => rfl
  | cons x xs ih =>
    rw [consolidate_cons]
    refine Eq.trans ?_ (hcons x _ _ ih)
    cases consolidate xs with
    | nil => rfl
    | cons y ys =>
      cases hxy : merge? x y with
      | some z => rw [consMerged_of_some hxy, hmerge x y z ys hxy]
      | none => rw [consMerged_of_none hxy]

theorem forall_mem_consolidate {P : Node → Prop}
    (hP : ∀ x y z, P x → P y → merge? x y = some z → P z) {xs : List Node} (h : ∀ x ∈ xs, P x) :
    ∀ x ∈ consolidate xs, P x := by
  induction xs with
  | nil => simp
  | cons x xs ih =>
    rw [List.forall_mem_cons] at h
    have ih := ih h.2
    rw [consolidate_cons]
    cases hxs : consolidate xs with
    | nil => simpa [consMerged] using h.1
    | cons y ys =>
      rw [hxs, List.forall_mem_cons] at ih
      cases hxy : merge? x y with
      | some z =>
        rw [consMerged_of_some hxy, List.forall_mem_cons]
        exact ⟨hP x y z h.1 ih.1 hxy, ih.2⟩
      | none =>
        rw [consMerged_of_none hxy, List.forall_mem_cons, List.forall_mem_cons]
        exact ⟨h.1, ih⟩

end AdfMarkdown.Node
