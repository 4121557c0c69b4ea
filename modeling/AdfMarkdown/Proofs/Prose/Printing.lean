import AdfMarkdown.Proofs.Lines
import AdfMarkdown.Proofs.Prose.Basic
import AdfMarkdown.Proofs.Renderable

/-! # The lines of prose

The lines of a block have no line feed in them, so a quotation takes the lines of what it quotes
apart again where they were joined. No block is empty in Markdown.
-/

namespace AdfMarkdown.Prose

theorem Run.styled_ne_empty (r : Run) : r.styled ≠ "" := by
  simp [Run.styled, r.text_ne]

theorem Run.markdown_ne_empty (r : Run) : r.markdown ≠ "" := by
  rw [Run.markdown]
  cases r.link with
  | none => exact r.styled_ne_empty
  | some href => simp

theorem Phrase.markdown_ne_empty (p : Phrase) : p.markdown ≠ "" := by
  obtain ⟨runs, hne, apart⟩ := p
  cases runs with
  | nil => exact absurd rfl hne
  | cons r rs => exact Text.join_cons_ne_empty r.markdown_ne_empty _

theorem quotedLine_ne_empty (line : String) : quotedLine line ≠ "" := by
  by_cases h : line = "" <;> simp [quotedLine, h]

theorem not_mem_quotedLine {line : String} (h : '\n' ∉ line.toList) :
    '\n' ∉ (quotedLine line).toList := by
  by_cases hl : line = "" <;> simp [quotedLine, hl, h]

namespace Block

theorem lines_ne_nil : ∀ b : Block, b.lines ≠ []
  | paragraph p => Text.lines_ne_nil _
  | heading level _ _ p => Text.lines_ne_nil _
  | bullet items hne => by
    obtain ⟨p, ps, rfl⟩ := List.exists_cons_of_ne_nil hne
    simp [lines, Text.lines_ne_nil]
  | ordered start items hne _ => by
    obtain ⟨p, ps, rfl⟩ := List.exists_cons_of_ne_nil hne
    simp [lines, Text.lines_ne_nil]
  | quote first rest => by
    have h := Text.intercalate_ne_nil [""] (lines_ne_nil first) (linesOfEach rest)
    simpa [lines] using h
  | code language text => by simp [lines]

mutual

theorem not_mem_of_mem_lines : ∀ (b : Block), ∀ line ∈ b.lines, '\n' ∉ line.toList
  | paragraph p, line, h => Text.not_mem_of_mem_lines h
  | heading level _ _ p, line, h => Text.not_mem_of_mem_lines h
  | bullet items _, line, h => by
    rw [lines, List.mem_flatMap] at h
    obtain ⟨p, -, h⟩ := h
    exact Text.not_mem_of_mem_lines h
  | ordered start items _ _, line, h => by
    rw [lines, List.mem_flatMap] at h
    obtain ⟨p, -, h⟩ := h
    exact Text.not_mem_of_mem_lines h
  | quote first rest, line, h => by
    rw [lines, List.mem_map] at h
    obtain ⟨inner, hinner, rfl⟩ := h
    refine not_mem_quotedLine ?_
    rcases Text.mem_intercalate hinner with hinner | ⟨g, hg, hinner⟩
    · simp_all
    · rcases List.mem_cons.mp hg with rfl | hg
      · exact not_mem_of_mem_lines first inner hinner
      · exact not_mem_of_mem_linesOfEach rest g hg inner hinner
  | code language text, line, h => by
    rw [lines, List.mem_append, List.mem_append] at h
    rcases h with (h | h) | h
    · exact Text.not_mem_of_mem_lines h
    · exact Text.not_mem_of_mem_lines h
    · obtain rfl := List.mem_singleton.mp h
      decide

theorem not_mem_of_mem_linesOfEach : ∀ (bs : List Block), ∀ g ∈ linesOfEach bs, ∀ line ∈ g,
    '\n' ∉ line.toList
  | [], g, hg, _, _ => by cases hg
  | b :: bs, g, hg, line, hline => by
    rcases List.mem_cons.mp hg with rfl | hg
    · exact not_mem_of_mem_lines b line hline
    · exact not_mem_of_mem_linesOfEach bs g hg line hline

end

theorem markdown_paragraph (p : Phrase) : (paragraph p).markdown = p.markdown :=
  Text.join_lines _

theorem markdown_heading {level : Nat} (h1 : 1 ≤ level) (h6 : level ≤ 6) (p : Phrase) :
    (heading level h1 h6 p).markdown = Text.times "#" level ++ " " ++ p.markdown :=
  Text.join_lines _

theorem markdown_bullet {items : List Phrase} (hne : items ≠ []) :
    (bullet items hne).markdown =
      Text.join "\n" ((items.map Phrase.markdown).map ("- " ++ ·)) := by
  rw [markdown, lines, Text.join_flatMap fun p _ => Text.lines_ne_nil _, List.map_map]
  simp only [Text.join_lines]
  rfl

theorem markdown_ordered {start : Nat} {items : List Phrase} (hne : items ≠ [])
    (h : start + items.length ≤ 1000000000) :
    (ordered start items hne h).markdown =
      Text.join "\n" (numbered start (items.map Phrase.markdown)) := by
  rw [markdown, lines, Text.join_flatMap fun p _ => Text.lines_ne_nil _, numbered,
    List.zipIdx_map, List.map_map]
  simp only [Text.join_lines]
  rfl

theorem markdown_code (language : Option String) (text : String) :
    (code language text).markdown =
      "```" ++ language.getD "" ++ "\n" ++ text ++ "\n```" := by
  rw [markdown, lines, Text.join_append (by simp [Text.lines_ne_nil]) (by simp),
    Text.join_append (Text.lines_ne_nil _) (Text.lines_ne_nil _), Text.join_lines, Text.join_lines,
    Text.join_singleton, String.append_assoc]
  rfl

theorem markdown_ne_empty (b : Block) : b.markdown ≠ "" := by
  cases b with
  | paragraph p => exact markdown_paragraph p ▸ p.markdown_ne_empty
  | heading level h1 h6 p =>
    rw [markdown_heading]
    simp
  | bullet items hne =>
    obtain ⟨p, ps, rfl⟩ := List.exists_cons_of_ne_nil hne
    rw [markdown_bullet]
    exact Text.join_cons_ne_empty (by simp) _
  | ordered start items hne h =>
    obtain ⟨p, ps, rfl⟩ := List.exists_cons_of_ne_nil hne
    rw [markdown_ordered]
    exact Text.join_cons_ne_empty (by simp) _
  | quote first rest =>
    obtain ⟨line, ls, hls⟩ := List.exists_cons_of_ne_nil
      (Text.intercalate_ne_nil [""] (lines_ne_nil first) (linesOfEach rest))
    rw [markdown, lines, hls]
    exact Text.join_cons_ne_empty (quotedLine_ne_empty line) _
  | code language text =>
    rw [markdown_code]
    simp

end Block

theorem markdown_eq_join (blocks : List Block) :
    markdown blocks = Text.join "\n\n" (blocks.map Block.markdown) := by
  have hgroups : ∀ g ∈ blocks.map Block.lines, g ≠ [] := by
    rw [List.forall_mem_map]
    exact fun b _ => b.lines_ne_nil
  rw [markdown, Text.join_intercalate hgroups, List.map_map]
  rfl

theorem joinNonempty_markdown (blocks : List Block) :
    Text.joinNonempty "\n\n" (blocks.map Block.markdown) = markdown blocks := by
  have hne : ∀ s ∈ blocks.map Block.markdown, s ≠ "" := by
    rw [List.forall_mem_map]
    exact fun b _ => b.markdown_ne_empty
  rw [Text.joinNonempty_eq_join hne, markdown_eq_join]

theorem Block.markdown_quote (first : Block) (rest : List Block) :
    (quote first rest).markdown = AdfMarkdown.quote (Prose.markdown (first :: rest)) := by
  have hne : Prose.markdown (first :: rest) ≠ "" := by
    rw [markdown_eq_join]
    exact Text.join_cons_ne_empty first.markdown_ne_empty _
  have hclean : ∀ line ∈ [""].intercalate ((first :: rest).map lines), '\n' ∉ line.toList := by
    intro line hline
    rcases Text.mem_intercalate hline with hline | ⟨g, hg, hline⟩
    · simp_all
    · obtain ⟨b, -, rfl⟩ := List.mem_map.mp hg
      exact not_mem_of_mem_lines b line hline
  have hlines := Text.lines_join (Text.intercalate_ne_nil [""] first.lines_ne_nil _) hclean
  rw [AdfMarkdown.quote, if_neg hne, Prose.markdown, List.map_cons, hlines, markdown, lines,
    linesOfEach_eq_map]
  rfl

end AdfMarkdown.Prose
