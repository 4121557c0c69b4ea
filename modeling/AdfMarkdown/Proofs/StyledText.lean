import AdfMarkdown.Proofs.Building
import AdfMarkdown.Proofs.Consolidation

/-! # The meaning of inline content

Inline tokens and inline nodes both mean a sequence of characters, each with its marks, and of line
breaks. The content built from tokens means what they mean, in the one way without an empty run and
without two neighbouring runs of equal marks; it depends on the sequence alone.
-/

namespace AdfMarkdown

/-- A character with its marks, or a line break. -/
inductive Glyph where
  | char (c : Char) (marks : List Mark)
  | lineBreak
  deriving DecidableEq, Repr

namespace Glyph

def spell (s : String) (marks : List Mark) : List Glyph := s.toList.map (char · marks)

theorem spell_append (s t : String) (marks : List Mark) :
    spell (s ++ t) marks = spell s marks ++ spell t marks := by
  simp [spell]

end Glyph

namespace Token

mutual

/-- The meaning of a token under the marks that enclose it, outermost first. A token of a type that
is not known here means what its children mean. -/
def glyphs (marks : List Mark) : Token → List Glyph
  | mk name raw style attrs children =>
    match name with
    | "text" => Glyph.spell (raw.getD "") marks
    | "codespan" => Glyph.spell (raw.getD "") (marks ++ [.code])
    | "softbreak" => [.char '\n' marks]
    | "linebreak" => [.lineBreak]
    | "emphasis" => childGlyphs (marks ++ [.em]) children
    | "strong" => childGlyphs (marks ++ [.strong]) children
    | "link" => childGlyphs (marks ++ [.link (url (mk name raw style attrs none))]) children
    | _ => childGlyphs marks children

def childGlyphs (marks : List Mark) : Option (List Token) → List Glyph
  | none => []
  | some ts => glyphsOf marks ts

def glyphsOf (marks : List Mark) : List Token → List Glyph
  | [] => []
  | t :: ts => glyphs marks t ++ glyphsOf marks ts

end

end Token

namespace Node

/-- The meaning of a node in a line of text. -/
def glyphs : Node → List Glyph
  | known .text _ _ text marks => Glyph.spell (text.getD "") marks
  | known .hardBreak .. => [.lineBreak]
  | _ => []

def glyphsOf (xs : List Node) : List Glyph := xs.flatMap glyphs

@[simp] theorem glyphsOf_nil : glyphsOf [] = [] := rfl

@[simp] theorem glyphsOf_cons (x : Node) (xs : List Node) :
    glyphsOf (x :: xs) = x.glyphs ++ glyphsOf xs := rfl

@[simp] theorem glyphsOf_append (xs ys : List Node) :
    glyphsOf (xs ++ ys) = glyphsOf xs ++ glyphsOf ys := List.flatMap_append

/-- A line break, or a run of text that is not empty. -/
def IsPiece (x : Node) : Prop := x = hardBreak ∨ ∃ s marks, s ≠ "" ∧ x = run s marks

/-- Line breaks and runs that are not empty, where neighbours have different marks. -/
structure IsNormal (xs : List Node) : Prop where
  pieces : ∀ x ∈ xs, x.IsPiece
  apart : xs.IsChain fun x y => ¬ SameMarks x y

section Merging

theorem merge?_run (s t : String) (marks : List Mark) :
    merge? (run s marks) (run t marks) = some (run (s ++ t) marks) := if_pos rfl

theorem glyphs_of_merge? {x y z : Node} (h : merge? x y = some z) :
    z.glyphs = x.glyphs ++ y.glyphs := by
  obtain ⟨c, a, t, m, c', a', t', rfl, rfl, rfl⟩ := merge?_eq_some_iff.mp h
  exact Glyph.spell_append _ _ _

theorem glyphsOf_consolidate (xs : List Node) : glyphsOf (consolidate xs) = glyphsOf xs := by
  apply apply_consolidate
  · intro x y z xs hxy
    simp [glyphs_of_merge? hxy]
  · intro x xs ys h
    rw [glyphsOf_cons, h, ← glyphsOf_cons]

theorem IsPiece.merge {x y z : Node} (hx : x.IsPiece) (h : merge? x y = some z) : z.IsPiece := by
  obtain ⟨c, a, t, m, c', a', t', rfl, rfl, rfl⟩ := merge?_eq_some_iff.mp h
  rcases hx with hx | ⟨s, marks, hs, hx⟩
  · cases hx
  · cases hx
    exact .inr ⟨_, m, by simp [hs], rfl⟩

theorem isNormal_consolidate {xs : List Node} (h : ∀ x ∈ xs, x.IsPiece) :
    IsNormal (consolidate xs) :=
  ⟨forall_mem_consolidate (fun _ _ _ hx _ hz => hx.merge hz) h, isChain_consolidate xs⟩

theorem IsNormal.consolidate_eq {xs : List Node} (h : IsNormal xs) : consolidate xs = xs :=
  consolidate_eq_self_iff.mpr h.apart

end Merging

section Uniqueness

def ofGlyph : Glyph → Node
  | .char c marks => run (String.singleton c) marks
  | .lineBreak => hardBreak

/-- The nodes for glyphs, each made one with the first node of the others if they make one run. -/
def ofGlyphs (gs : List Glyph) : List Node := gs.foldr (fun g xs => consMerged (ofGlyph g) xs) []

theorem ofGlyphs_spell (c : Char) (cs : List Char) (marks : List Mark) (gs : List Glyph) :
    ofGlyphs ((c :: cs).map (.char · marks) ++ gs) =
      consMerged (run (String.ofList (c :: cs)) marks) (ofGlyphs gs) := by
  induction cs generalizing c with
  | nil => rfl
  | cons d ds ih =>
    have hfront : ofGlyphs ((c :: d :: ds).map (.char · marks) ++ gs) =
        consMerged (run (String.singleton c) marks)
          (ofGlyphs ((d :: ds).map (.char · marks) ++ gs)) := rfl
    have htext : String.singleton c ++ String.ofList (d :: ds) = String.ofList (c :: d :: ds) := by
      rw [← String.toList_inj]
      simp
    rw [hfront, ih, consMerged_consMerged_of_some (merge?_run _ _ _), htext]

theorem consolidate_eq_ofGlyphs {xs : List Node} (h : ∀ x ∈ xs, x.IsPiece) :
    consolidate xs = ofGlyphs (glyphsOf xs) := by
  induction xs with
  | nil => rfl
  | cons x xs ih =>
    rw [List.forall_mem_cons] at h
    rw [consolidate_cons, ih h.2]
    rcases h.1 with rfl | ⟨s, marks, hs, rfl⟩
    · rfl
    · obtain ⟨c, cs, hcs⟩ := List.exists_cons_of_ne_nil (String.toList_eq_nil_iff.not.mpr hs)
      have hglyphs : glyphsOf (run s marks :: xs) =
          (c :: cs).map (.char · marks) ++ glyphsOf xs := by
        rw [← hcs]
        rfl
      rw [hglyphs, ofGlyphs_spell, ← hcs, String.ofList_toList]

/-- Two normal lists of one meaning are the same. -/
theorem IsNormal.eq_of_glyphsOf_eq {xs ys : List Node} (hx : IsNormal xs) (hy : IsNormal ys)
    (h : glyphsOf xs = glyphsOf ys) : xs = ys := by
  rw [← hx.consolidate_eq, ← hy.consolidate_eq, consolidate_eq_ofGlyphs hx.pieces,
    consolidate_eq_ofGlyphs hy.pieces, h]

end Uniqueness

end Node

namespace Token

mutual

theorem glyphsOf_inlineNodes (marks : List Mark) : ∀ t : Token,
    Node.glyphsOf (inlineNodes marks t) = glyphs marks t
  | mk name raw style attrs children => by
    have htext (marks : List Mark) :
        Node.glyphsOf (if raw.getD "" = "" then [] else [.run (raw.getD "") marks]) =
          Glyph.spell (raw.getD "") marks := by
      split
      · next hraw => rw [hraw]; rfl
      · simp [Node.glyphs, Node.run]
    unfold inlineNodes glyphs
    split
    · exact htext marks
    · exact htext (marks ++ [.code])
    · rfl
    · rfl
    all_goals simp_all [glyphsOf_childNodes]

theorem glyphsOf_childNodes (marks : List Mark) : ∀ children : Option (List Token),
    Node.glyphsOf (childNodes marks children) = childGlyphs marks children
  | none => by simp [childNodes, childGlyphs]
  | some ts => by
    rw [childNodes, childGlyphs]
    exact glyphsOf_inlineNodesOf marks ts

theorem glyphsOf_inlineNodesOf (marks : List Mark) : ∀ ts : List Token,
    Node.glyphsOf (inlineNodesOf marks ts) = glyphsOf marks ts
  | [] => by simp [inlineNodesOf, glyphsOf]
  | t :: ts => by
    rw [inlineNodesOf, glyphsOf, Node.glyphsOf_append, glyphsOf_inlineNodes marks t,
      glyphsOf_inlineNodesOf marks ts]

end

theorem isPiece_of_mem_inlineNodes (t : Token) : ∀ marks : List Mark,
    ∀ x ∈ inlineNodes marks t, x.IsPiece := by
  induction t using Token.induct with
  | step t ih =>
    intro marks x hx
    rcases mem_inlineNodes_cases hx with ⟨s, hs, rfl | rfl⟩ | rfl | ⟨u, hu, hx⟩
    · exact .inr ⟨s, _, hs, rfl⟩
    · exact .inr ⟨s, _, hs, rfl⟩
    · exact .inl rfl
    · exact ih u hu _ x hx

theorem isNormal_inlineContent (ts : List Token) : Node.IsNormal (inlineContent ts) := by
  refine Node.isNormal_consolidate fun x hx => ?_
  rw [inlineNodesOf_eq_flatMap, List.mem_flatMap] at hx
  obtain ⟨t, -, hx⟩ := hx
  exact isPiece_of_mem_inlineNodes t [] x hx

theorem glyphsOf_inlineContent (ts : List Token) :
    Node.glyphsOf (inlineContent ts) = glyphsOf [] ts := by
  rw [inlineContent, Node.glyphsOf_consolidate, glyphsOf_inlineNodesOf]

/-- The content built from tokens is the one normal list of nodes of their meaning, so two lists of
tokens give the same content exactly if they mean the same. -/
theorem inlineContent_unique (ts : List Token) :
    (∀ xs, Node.IsNormal xs ∧ Node.glyphsOf xs = glyphsOf [] ts ↔ xs = inlineContent ts) ∧
    ∀ us, inlineContent ts = inlineContent us ↔ glyphsOf [] ts = glyphsOf [] us := by
  have hnormal := isNormal_inlineContent ts
  have hmeaning := glyphsOf_inlineContent ts
  refine ⟨fun xs => ⟨?_, ?_⟩, fun us => ⟨fun h => ?_, fun h => ?_⟩⟩
  · rintro ⟨hxs, hglyphs⟩
    exact hxs.eq_of_glyphsOf_eq hnormal (hglyphs.trans hmeaning.symm)
  · rintro rfl
    exact ⟨hnormal, hmeaning⟩
  · rw [← hmeaning, h, glyphsOf_inlineContent us]
  · refine hnormal.eq_of_glyphsOf_eq (isNormal_inlineContent us) ?_
    rw [hmeaning, h, glyphsOf_inlineContent us]

end Token

end AdfMarkdown
