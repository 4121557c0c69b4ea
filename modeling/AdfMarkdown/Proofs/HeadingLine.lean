import AdfMarkdown.Config
import AdfMarkdown.Proofs.ItemLines
import AdfMarkdown.Proofs.Lossless
import AdfMarkdown.Proofs.ReadingOn
import AdfMarkdown.Proofs.StyledText

/-! # The line of a heading

A heading renders as its signs before its text, and the breaks among its tokens are line feeds in
the text. So it has one line and one more for each break, and only the first one is read as a
heading.
-/

namespace AdfMarkdown

/-! ## Line feeds in a text with marks -/

def Mark.Straight (m : Mark) : Prop := ∀ href, m.href = some href → '\n' ∉ href.toList

def Glyph.breaks : Glyph → Bool
  | .char c _ => c == '\n'
  | .lineBreak => true

theorem Glyph.countP_breaks_spell (s : String) (marks : List Mark) :
    (spell s marks).countP breaks = s.toList.count '\n' := by
  rw [spell, List.countP_map]
  rfl

namespace Node

theorem count_inlineText {x : Node} (h : ∀ m ∈ x.marks, m.Straight) :
    x.inlineText.toList.count '\n' = x.glyphs.countP Glyph.breaks := by
  cases x with
  | foreign => rfl
  | known kind content attrs text marks =>
    cases kind with
    | text =>
      have hmarks : ∀ m ∈ marks, m.Straight := h
      rw [inlineText, count_applyMarks hmarks, glyphs, Glyph.countP_breaks_spell]
    | hardBreak => simp [inlineText, glyphs, Glyph.breaks]
    | _ => rfl

/-- The line feeds in rendered content are its line breaks and the line feeds in its runs. -/
theorem count_renderInline {xs : List Node} (h : ∀ x ∈ xs, ∀ m ∈ x.marks, m.Straight) :
    (renderInline xs).toList.count '\n' = (glyphsOf xs).countP Glyph.breaks := by
  induction xs with
  | nil => rfl
  | cons x xs ih =>
    rw [List.forall_mem_cons] at h
    rw [renderInline, List.map_cons, Text.join_empty_cons, String.toList_append, List.count_append,
      count_inlineText h.1, glyphsOf_cons, List.countP_append, ← ih h.2]
    rfl

end Node

namespace Token

/-! ## Breaks among tokens -/

/-- The token writes no line feed of its own: its text has none, and neither has the destination of
a link. -/
def Straight (t : Token) : Prop :=
  (t.name = "text" ∨ t.name = "codespan" → '\n' ∉ t.raw.toList) ∧
    (t.name = "link" → '\n' ∉ t.url.toList)

mutual

/-- How many breaks, soft and hard ones, stand in the token. -/
def breaks : Token → Nat
  | mk name _ _ _ children =>
    match name with
    | "text" | "codespan" => 0
    | "softbreak" | "linebreak" => 1
    | _ => childBreaks children

def childBreaks : Option (List Token) → Nat
  | none => 0
  | some ts => breaksOf ts

def breaksOf : List Token → Nat
  | [] => 0
  | t :: ts => breaks t + breaksOf ts

end

mutual

theorem countP_glyphs (marks : List Mark) : ∀ t : Token, t.Everywhere Straight →
    (glyphs marks t).countP Glyph.breaks = breaks t
  | mk name raw style attrs children, h => by
    obtain ⟨⟨htext, -⟩, hchildren⟩ := everywhere_mk.mp h
    have hbelow (marks : List Mark) := countP_childGlyphs marks children hchildren
    unfold glyphs breaks
    split
    · rw [Glyph.countP_breaks_spell]
      exact List.count_eq_zero_of_not_mem (htext (.inl rfl))
    · rw [Glyph.countP_breaks_spell]
      exact List.count_eq_zero_of_not_mem (htext (.inr rfl))
    · rfl
    · rfl
    · exact hbelow _
    · exact hbelow _
    · exact hbelow _
    · rw [hbelow]
      split <;> simp_all

theorem countP_childGlyphs (marks : List Mark) : ∀ children : Option (List Token),
    (∀ u ∈ children.getD [], u.Everywhere Straight) →
      (childGlyphs marks children).countP Glyph.breaks = childBreaks children
  | none, _ => by rw [childGlyphs, childBreaks]; rfl
  | some ts, h => by
    rw [childGlyphs, childBreaks]
    exact countP_glyphsOf marks ts h

theorem countP_glyphsOf (marks : List Mark) : ∀ ts : List Token,
    (∀ t ∈ ts, t.Everywhere Straight) → (glyphsOf marks ts).countP Glyph.breaks = breaksOf ts
  | [], _ => by rw [glyphsOf, breaksOf]; rfl
  | t :: ts, h => by
    rw [List.forall_mem_cons] at h
    rw [glyphsOf, breaksOf, List.countP_append, countP_glyphs marks t h.1,
      countP_glyphsOf marks ts h.2]

end

theorem straight_of_mem_ownMarks {t : Token} (ht : t.Straight) {m : Mark} (hm : m ∈ t.ownMarks) :
    m.Straight := by
  rcases mem_ownMarks_cases hm with rfl | rfl | ⟨hname, rfl⟩
  · simp [Mark.Straight, Mark.em]
  · simp [Mark.Straight, Mark.strong]
  · simpa [Mark.Straight, Mark.link] using ht.2 hname

theorem length_lines_renderInline {ts : List Token} (h : ∀ t ∈ ts, t.Everywhere Straight) :
    (Text.lines (Node.renderInline (inlineContent ts))).length = breaksOf ts + 1 := by
  have hmarks : ∀ x ∈ inlineContent ts, ∀ m ∈ x.marks, m.Straight :=
    forall_mem_marks_inlineContent (by simp [Mark.Straight, Mark.code]) fun t ht s hs _ hm =>
      straight_of_mem_ownMarks (h t ht s hs) hm
  rw [Text.length_lines, Node.count_renderInline hmarks, glyphsOf_inlineContent,
    countP_glyphsOf [] ts h]

end Token

/-! ## What is read as the heading -/

namespace Markdown

theorem exists_textLines_eq {s l : String} {ls : List String} (hreturn : '\r' ∉ s.toList)
    (hlines : Text.lines s = l :: ls) (hl : l ≠ "") :
    ∃ rest, textLines s.toList = l.toList :: rest ∧ (ls = [] → rest = []) := by
  have hsplit : Text.splitAt '\n' s.toList = l.toList :: ls.map String.toList := by
    have hmap := congrArg (List.map String.toList) hlines
    rw [Text.lines, List.map_map] at hmap
    simpa using hmap
  unfold textLines
  rw [Prose.unify_eq_self hreturn, hsplit]
  cases ls with
  | nil => exact ⟨[], by simp [hl], fun _ => rfl⟩
  | cons m ls =>
    have hmore : m :: ls ≠ [] := List.cons_ne_nil m ls
    dsimp only
    split
    · exact ⟨_, List.dropLast_cons_of_ne_nil (by simp), fun h => absurd h hmore⟩
    · exact ⟨_, rfl, fun h => absurd h hmore⟩

theorem readBlocks_heading {level : Nat} {s first : String} {ls : List String} (hone : 1 ≤ level)
    (hsix : level ≤ 6) (hreturn : '\r' ∉ s.toList)
    (hlines : Text.lines s = (Text.times "#" level ++ " " ++ first) :: ls) (ext : Extensions) :
    let heading := Block.heading level (BlockStart.withoutClosing (' ' :: first.toList))
    heading ∈ readBlocks ext s.toList ∧ (ls = [] → readBlocks ext s.toList = [heading]) := by
  intro heading
  have hsigns : (Text.times "#" level ++ " " ++ first).toList =
      List.replicate level '#' ++ ' ' :: first.toList := by
    rw [String.toList_append, String.toList_append, Text.toList_times rfl, List.append_assoc]
    rfl
  have hne : Text.times "#" level ++ " " ++ first ≠ "" := by
    intro hempty
    rw [hempty] at hsigns
    simp at hsigns
  obtain ⟨rest, htext, hend⟩ := exists_textLines_eq hreturn hlines hne
  have hat : Prose.At (.ofLine (Text.times "#" level ++ " " ++ first).toList)
      (List.replicate level '#' ++ ' ' :: first.toList) := ⟨hsigns, rfl⟩
  have hread : BlockStart.read? 0 .fresh _ = some (.heading level _) :=
    Prose.read?_numberSigns hone hsix hat
  have hblank : (Cursor.ofLine (Text.times "#" level ++ " " ++ first).toList).isBlankLine =
      false := by
    obtain ⟨n, rfl⟩ : ∃ n, level = n + 1 := ⟨level - 1, by omega⟩
    exact Prose.At.isBlankLine hat (by decide)
  obtain ⟨fuel, hfuel⟩ := exists_readBlocks_eq ext s.toList
  rw [htext, List.map_cons, Prose.readAll_start hblank rfl hread] at hfuel
  rw [hfuel]
  refine ⟨List.mem_reverse.mpr (Progress.mem_readAll (fun _ => nofun) List.mem_cons_self), ?_⟩
  intro hls
  rw [hend hls]
  rfl

end Markdown

namespace Token

open Markdown

/-- A heading renders as its signs, a blank and its text, on one line and one more for each break
among its tokens. Only the first line is read as the heading, and it is all that is read if there is
no break. -/
theorem lines_renderBlock_heading {t : Token} {level : Nat} {x : Node} (hname : t.name = "heading")
    (hlevel : t.attr? "level" = some (.int level)) (hone : 1 ≤ level) (hsix : level ≤ 6)
    (hchildren : ∀ u ∈ t.children, u.Everywhere Straight) (hx : block? t = some x) :
    let text := Node.renderInline (inlineContent t.children)
    let s := Text.times "#" level ++ " " ++ text
    Node.renderBlock x = .ok s ∧ ('\n' ∉ s.toList ↔ breaksOf t.children = 0) ∧
      ∃ first rest, Text.lines text = first :: rest ∧ rest.length = breaksOf t.children ∧
        Text.lines s = (Text.times "#" level ++ " " ++ first) :: rest ∧
        ('\r' ∉ s.toList → ∀ ext,
          let heading := Block.heading level (BlockStart.withoutClosing (' ' :: first.toList))
          heading ∈ readBlocks ext s.toList ∧
            (breaksOf t.children = 0 → readBlocks ext s.toList = [heading])) := by
  intro text s
  have hlength : (Text.lines text).length = breaksOf t.children + 1 :=
    length_lines_renderInline hchildren
  obtain ⟨first, rest, hlines⟩ := List.exists_cons_of_ne_nil (Text.lines_ne_nil text)
  have hrest : rest.length = breaksOf t.children := by
    rw [hlines, List.length_cons] at hlength
    omega
  have hsigns : '\n' ∉ (Text.times "#" level ++ " ").toList := by
    rw [String.toList_append, Text.toList_times rfl, List.mem_append]
    rintro (h | h)
    · exact absurd (List.eq_of_mem_replicate h) (by decide)
    · exact absurd h (by decide)
  have hall : Text.lines s = (Text.times "#" level ++ " " ++ first) :: rest :=
    Text.lines_append hsigns hlines
  refine ⟨?_, ?_, first, rest, hlines, hrest, hall, fun hreturn ext => ?_⟩
  · have hattrs : t.headingAttrs = [("level", .int level)] := by simp [headingAttrs, hlevel]
    rw [block?_eq, hname, if_neg (by decide), if_pos rfl, textBlock?_eq_some_iff, hattrs] at hx
    rw [hx.2]
    rfl
  · rw [← Text.length_lines_eq_one_iff, hall, List.length_cons, hrest]
    omega
  · obtain ⟨hmem, honly⟩ := readBlocks_heading hone hsix hreturn hall ext
    exact ⟨hmem, fun h => honly (List.eq_nil_of_length_eq_zero (hrest.trans h))⟩

/-- A soft break in bold text within a link and a hard break after code. -/
theorem lines_renderBlock_heading_nested :
    let t : Token := .branchWith "heading" [("level", .int 2)]
      [.leaf "text" "a", .branchWith "link" [("url", .text "u")]
        [.branch "strong" [.leaf "text" "b", .bare "softbreak", .leaf "text" "c"]],
        .leaf "codespan" "d", .bare "linebreak", .leaf "text" "e"]
    let s := "## a[**b\nc**](u)\x60d\x60\ne"
    ∃ x, block? t = some x ∧ Node.renderBlock x = .ok s ∧ breaksOf t.children = 2 ∧
      Text.lines s = ["## a[**b", "c**](u)\x60d\x60", "e"] ∧
      .heading 2 "a[**b".toList ∈ readBlocks (.ofNames defaultPlugins) s.toList := by
  intro t s
  have hchildren : ∀ u ∈ t.children, u.Everywhere Straight := by
    simp [t, Token.children, children?, branchWith, branch, leaf, bare, everywhere_mk, Straight,
      Token.name, raw, raw?, url, attr?, attrs?, Fields.get?, Json.text?]
  obtain ⟨x, hx⟩ : ∃ x, block? t = some x := ⟨_, rfl⟩
  obtain ⟨hs, -, first, rest, hlines, hrest, hall, hread⟩ :=
    lines_renderBlock_heading rfl rfl (by decide) (by decide) hchildren hx
  have htext : Node.renderInline (inlineContent t.children) = "a[**b\nc**](u)\x60d\x60\ne" := rfl
  have hcut : Text.lines "a[**b\nc**](u)\x60d\x60\ne" = ["a[**b", "c**](u)\x60d\x60", "e"] := by
    decide
  rw [htext, hcut] at hlines
  obtain ⟨rfl, rfl⟩ := List.cons.inj hlines
  exact ⟨x, hx, hs, hrest.symm, hall, (hread (by decide) _).1⟩

/-- A soft break between two letters. The second one is read as a paragraph. -/
theorem renderBlock_heading_twoLines :
    let t : Token := .branchWith "heading" [("level", .int 1)]
      [.leaf "text" "a", .bare "softbreak", .leaf "text" "b"]
    (block? t).map Node.renderBlock = some (.ok "# a\nb") ∧ '\n' ∈ "# a\nb".toList ∧
      readBlocks (.ofNames defaultPlugins) "# a\nb".toList =
        [.heading 1 "a".toList, .paragraph "b\n".toList] :=
  ⟨rfl, by decide, rfl⟩

end Token

end AdfMarkdown
