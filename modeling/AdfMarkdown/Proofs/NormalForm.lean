import AdfMarkdown.Document.Store
import AdfMarkdown.Proofs.StyledText

/-! # The normal form of a list of nodes

Consolidation is a normal form: its values are the lists that it leaves as they are, it keeps all
but the cuts between the runs of a stretch of text, and a list can be cut anywhere and brought into
the form part by part. On nodes in a store it reads and adds nodes but never changes one.
-/

namespace AdfMarkdown

namespace Node

section Stretches

/-- The meaning of each stretch of text, in front of, between and behind the nodes that are not
text. -/
def stretches (xs : List Node) : List (List Glyph) := (xs.splitOnP (!·.isText)).map glyphsOf

theorem stretches_cons (x : Node) (xs : List Node) :
    stretches (x :: xs) = if x.isText then (stretches xs).modifyHead (x.glyphs ++ ·)
      else [] :: stretches xs := by
  unfold stretches
  rw [List.splitOnP_cons_eq_if_modifyHead]
  cases hx : x.isText with
  | true =>
    obtain ⟨first, rest, hxs⟩ :=
      List.exists_cons_of_ne_nil (List.splitOnP_ne_nil (fun y : Node => !y.isText) xs)
    simp [hxs]
  | false => simp

theorem stretches_of_merge? {x y z : Node} (h : merge? x y = some z) (xs : List Node) :
    stretches (z :: xs) = stretches (x :: y :: xs) := by
  obtain ⟨hx, hy, hz⟩ := isText_of_merge? h
  have happend : ((x.glyphs ++ ·) ∘ (y.glyphs ++ ·)) = (z.glyphs ++ ·) := by
    funext gs
    simp [glyphs_of_merge? h]
  rw [stretches_cons z, stretches_cons x, stretches_cons y, if_pos hx, if_pos hy, if_pos hz,
    List.modifyHead_modifyHead, happend]

theorem stretches_consolidate (xs : List Node) : stretches (consolidate xs) = stretches xs := by
  apply apply_consolidate
  · intro x y z xs hxy
    exact stretches_of_merge? hxy xs
  · intro x xs ys h
    rw [stretches_cons, stretches_cons, h]

theorem filter_not_isText_consolidate (xs : List Node) :
    (consolidate xs).filter (!·.isText) = xs.filter (!·.isText) := by
  apply apply_consolidate (f := List.filter (!·.isText))
  · intro x y z xs hxy
    obtain ⟨hx, hy, hz⟩ := isText_of_merge? hxy
    simp [hx, hy, hz]
  · intro x xs ys h
    rw [List.filter_cons, List.filter_cons, h]

end Stretches

end Node

namespace Store

variable {σ τ : Store Node} {places done : List Nat} {xs ys : List Node} {p : Nat} {x : Node}

def Holds (σ : Store Node) (places : List Nat) (xs : List Node) : Prop :=
  List.Forall₂ (fun p x => σ.get? p = some x) places xs

/-- A result computed from a store: a store in which each node of the first is as it was, and the
places of the nodes in it. -/
structure Gives (σ : Store Node) (result : Store Node × List Nat) (xs : List Node) : Prop where
  kept : σ.Extends result.1
  held : result.1.Holds result.2 xs

theorem Holds.extend (h : σ.Holds places xs) (he : σ.Extends τ) : τ.Holds places xs :=
  List.Forall₂.imp (fun _ _ hp => he hp) h

theorem merge?_eq {q : Nat} {y : Node} (hp : σ.get? p = some x) (hq : σ.get? q = some y) :
    σ.merge? p q = Node.merge? x y := by
  simp [merge?, hp, hq]

/-- One step on places does what it does on the nodes there. -/
theorem gives_pushMerged (hdone : σ.Holds done xs) (hp : σ.get? p = some x) :
    σ.Gives (pushMerged (σ, done) p) (Node.pushMerged xs x) := by
  cases hdone with
  | nil => exact ⟨.refl σ, .cons hp .nil⟩
  | @cons last y rest ys hlast hrest =>
    rw [pushMerged, Node.pushMerged, merge?_eq hlast hp]
    cases Node.merge? y x with
    | some z =>
      have hextends := extends_add σ z
      exact ⟨hextends, .cons (get?_next_add σ z) (Holds.extend hrest hextends)⟩
    | none => exact ⟨.refl σ, .cons hp (.cons hlast hrest)⟩

theorem gives_foldl_pushMerged (hdone : σ.Holds done xs) (hplaces : σ.Holds places ys) :
    σ.Gives (places.foldl pushMerged (σ, done)) (ys.foldl Node.pushMerged xs) := by
  -- By induction on the places; those that are left hold the same nodes in the store after a step.
  induction places generalizing σ done xs ys with
  | nil =>
    cases hplaces
    exact ⟨.refl σ, hdone⟩
  | cons p places ih =>
    cases hplaces with
    | cons hp hplaces =>
      obtain ⟨hextends, hstep⟩ := gives_pushMerged hdone hp
      obtain ⟨hkept, hheld⟩ := ih hstep (Holds.extend hplaces hextends)
      exact ⟨hextends.trans hkept, hheld⟩

theorem gives_consolidate (h : σ.Holds places xs) :
    σ.Gives (σ.consolidate places) (Node.consolidate xs) := by
  obtain ⟨hkept, hheld⟩ := gives_foldl_pushMerged .nil h
  exact ⟨hkept, List.forall₂_reverse_iff.mpr hheld⟩

end Store

namespace Node

/-- Consolidation brings a list of nodes into the form without neighbouring runs of equal marks, and
the lists of this form are those that it leaves as they are. It keeps the nodes that are not text,
in their order, and the stretches of text between them, each character with its marks. It is
idempotent, and cutting a list anywhere and consolidating either part first makes no difference. On
nodes in a store, where a place can be listed more than once, it gives places of the same result and
leaves every node that was there as it is. -/
theorem consolidate_normal_form (xs : List Node) :
    (consolidate xs).IsChain (fun x y => ¬ SameMarks x y) ∧
    (consolidate xs = xs ↔ xs.IsChain fun x y => ¬ SameMarks x y) ∧
    (consolidate xs).filter (!·.isText) = xs.filter (!·.isText) ∧
    stretches (consolidate xs) = stretches xs ∧
    consolidate (consolidate xs) = consolidate xs ∧
    (∀ ys, consolidate (xs ++ ys) = consolidate (consolidate xs ++ ys) ∧
      consolidate (xs ++ ys) = consolidate (xs ++ consolidate ys)) ∧
    ∀ (σ : Store Node) (places : List Nat), σ.Holds places xs →
      σ.Extends (σ.consolidate places).1 ∧
        (σ.consolidate places).1.Holds (σ.consolidate places).2 (consolidate xs) := by
  refine ⟨isChain_consolidate xs, consolidate_eq_self_iff, filter_not_isText_consolidate xs,
    stretches_consolidate xs, consolidate_idem xs, fun ys => ?_, fun σ places h => ?_⟩
  · exact ⟨(consolidate_append_left xs ys).symm, (consolidate_append_right xs ys).symm⟩
  · obtain ⟨hkept, hheld⟩ := Store.gives_consolidate h
    exact ⟨hkept, hheld⟩

/-- A node that is listed three times, twice in a row: the run that two of them make is a new node,
so the third one is as before. -/
theorem consolidate_normal_form_shared :
    Store.Holds ⟨[run "a" [], hardBreak]⟩ [0, 0, 1, 0]
      [run "a" [], run "a" [], hardBreak, run "a" []] ∧
    Store.Extends ⟨[run "a" [], hardBreak]⟩ ⟨[run "a" [], hardBreak, run "aa" []]⟩ ∧
    Store.Holds ⟨[run "a" [], hardBreak, run "aa" []]⟩ [2, 1, 0]
      [run "aa" [], hardBreak, run "a" []] := by
  have hholds : Store.Holds ⟨[run "a" [], hardBreak]⟩ [0, 0, 1, 0]
      [run "a" [], run "a" [], hardBreak, run "a" []] :=
    .cons rfl (.cons rfl (.cons rfl (.cons rfl .nil)))
  obtain ⟨-, -, -, -, -, -, hstore⟩ :=
    consolidate_normal_form [run "a" [], run "a" [], hardBreak, run "a" []]
  exact ⟨hholds, hstore _ _ hholds⟩

end Node

end AdfMarkdown
