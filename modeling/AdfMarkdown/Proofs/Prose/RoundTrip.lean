import AdfMarkdown.Proofs.Lossless
import AdfMarkdown.Proofs.Prose.Building
import AdfMarkdown.Proofs.Prose.Printing

/-! # The round trip of prose

The nodes of prose are read back from JSON as they are, and each renders as the block it comes
from. So the tokens of prose, however they are cut, come back as the Markdown of its blocks.
-/

namespace AdfMarkdown.Prose

open Node

theorem Run.filterMap_reread?_marks (r : Run) : r.marks.filterMap Mark.reread? = r.marks := by
  obtain ⟨link, style, text, hlink, htext⟩ := r
  cases link with
  | none => cases style <;> rfl
  | some href =>
    have hhref : href ≠ "" := by simpa using hlink
    cases style <;>
      simp [Run.marks, Style.marks, Mark.reread?, Mark.link, Mark.strong, Mark.em, Mark.code, hhref]

theorem Run.reread_node (r : Run) : r.node.reread = r.node := by
  simp [Run.node, run, reread, r.filterMap_reread?_marks]

theorem Phrase.rereadAll_nodes (p : Phrase) : rereadAll p.nodes = p.nodes := by
  rw [rereadAll_eq_map, Phrase.nodes, List.map_map]
  exact List.map_congr_left fun r _ => r.reread_node

theorem Phrase.reread_item (p : Phrase) : p.item.reread = p.item := by
  simp [Phrase.item, branch, reread, rereadAll, attributesFor, p.rereadAll_nodes]

theorem Phrase.rereadAll_items (ps : List Phrase) :
    rereadAll (ps.map Phrase.item) = ps.map Phrase.item := by
  rw [rereadAll_eq_map, List.map_map]
  exact List.map_congr_left fun p _ => p.reread_item

namespace Block

mutual

theorem reread_node : ∀ b : Block, b.node.reread = b.node
  | paragraph p => by simp [node, branch, reread, attributesFor, p.rereadAll_nodes]
  | heading level h1 h6 p => by
    have hattrs := attributesFor_heading h1 h6
    simp [node, branch, reread, hattrs, p.rereadAll_nodes]
  | bullet items _ => by simp [node, branch, reread, attributesFor, Phrase.rereadAll_items]
  | ordered start items _ _ => by
    have hattrs := attributesFor_orderedList start
    simp [node, branch, reread, hattrs, Phrase.rereadAll_items]
  | quote first rest => by
    simp [node, branch, reread, rereadAll, attributesFor, reread_node first,
      rereadAll_nodeOfEach rest]
  | code language text => by
    have hattrs := attributesFor_codeBlock (language.getD "")
    by_cases ht : text = "" <;>
      simp [node, branch, run, reread, rereadAll, hattrs, ht]

theorem rereadAll_nodeOfEach : ∀ bs : List Block, rereadAll (nodeOfEach bs) = nodeOfEach bs
  | [] => rfl
  | b :: bs => by rw [nodeOfEach, rereadAll, reread_node b, rereadAll_nodeOfEach bs]

end

end Block

theorem Run.lastDestination_marks (r : Run) : lastDestination r.marks = r.link := by
  obtain ⟨link, style, text, hlink, htext⟩ := r
  cases link with
  | none => cases style <;> rfl
  | some href =>
    have hhref : href ≠ "" := by simpa using hlink
    cases style <;>
      simp [lastDestination, Run.marks, Style.marks, Mark.destination?, Mark.link, Mark.strong,
        Mark.em, Mark.code, hhref]

theorem Run.emphasized_marks (r : Run) : emphasized r.text r.marks = r.styled := by
  obtain ⟨link, style, text, hlink, htext⟩ := r
  cases link <;> cases style <;>
    simp [emphasized, hasMark, Run.styled, Run.marks, Style.marks, Style.sign, Mark.link,
      Mark.strong, Mark.em, Mark.code]

theorem Run.inlineText_node (r : Run) : inlineText r.node = r.markdown := by
  have htext : inlineText r.node = applyMarks r.text r.marks := rfl
  rw [htext, applyMarks, r.lastDestination_marks, r.emphasized_marks, Run.markdown]
  cases r.link <;> rfl

namespace Phrase

theorem renderInline_nodes (p : Phrase) : renderInline p.nodes = p.markdown := by
  rw [renderInline, Phrase.nodes, List.map_map, Phrase.markdown]
  exact congrArg _ (List.map_congr_left fun r _ => r.inlineText_node)

theorem renderBlock_item (p : Phrase) : renderBlock p.item = .ok p.markdown := by
  have hparts : renderBlocks [.branch .paragraph p.nodes []] = .ok [p.markdown] := by
    rw [← p.renderInline_nodes]
    rfl
  have hone : Text.joinNonempty " " [p.markdown] = p.markdown :=
    Text.joinNonempty_eq_join (by simpa using p.markdown_ne_empty)
  rw [Phrase.item, branch, renderBlock, hparts]
  exact congrArg _ hone

theorem renderItems_items (ps : List Phrase) :
    renderItems (ps.map Phrase.item) = .ok (ps.map Phrase.markdown) := by
  have hitems : (ps.map Phrase.item).filter isItem = ps.map Phrase.item :=
    List.filter_eq_self.mpr (List.forall_mem_map.mpr fun _ _ => rfl)
  rw [renderItems_eq, hitems]
  exact renderBlocks_map_eq_ok fun p _ => p.renderBlock_item

end Phrase

theorem plainText_text (text : String) :
    plainText (if text = "" then [] else [.run text []]) = text := by
  by_cases h : text = "" <;> simp [plainText, literalText, run, h]

theorem languageOf_language (s : String) :
    languageOf (if s = "" then [] else [("language", .text s)]) = s := by
  by_cases h : s = "" <;> simp [languageOf, Fields.get?, Json.inserted, h]

theorem orderOf_order (n : Nat) :
    orderOf (if n = 1 then [] else [("order", .int n)]) = .ok (n : Int) := by
  by_cases h : n = 1
  · subst h; rfl
  · rw [if_neg h]; rfl

namespace Block

mutual

/-- The node of a block renders as the block. -/
theorem renderBlock_node : ∀ b : Block, renderBlock b.node = .ok b.markdown
  | paragraph p => by
    rw [markdown_paragraph, ← p.renderInline_nodes]
    rfl
  | heading level h1 h6 p => by
    rw [markdown_heading, ← p.renderInline_nodes]
    rfl
  | bullet items hne => by
    rw [markdown_bullet, node, branch, renderBlock, Phrase.renderItems_items]
    rfl
  | ordered start items hne h => by
    have hpow := le_pow_maxDigits
    have hnumbers : numberItems start (items.map Phrase.markdown) =
        .ok (numbered start (items.map Phrase.markdown)) :=
      numberItems_eq_ok (by rw [List.length_map]; omega)
    rw [markdown_ordered, node, branch]
    exact renderBlock_orderedList (Phrase.renderItems_items items) (orderOf_order start) hnumbers
      none []
  | quote first rest => by
    have hparts : renderBlocks (first.node :: nodeOfEach rest) =
        .ok ((first :: rest).map markdown) := by
      rw [renderBlocks, renderBlock_node first, renderBlocks_nodeOfEach rest]
      rfl
    rw [markdown_quote, ← joinNonempty_markdown, node, branch, renderBlock, hparts]
    rfl
  | code language text => by
    rw [markdown_code, node, branch, renderBlock, plainText_text, languageOf_language]

theorem renderBlocks_nodeOfEach : ∀ bs : List Block,
    renderBlocks (nodeOfEach bs) = .ok (bs.map markdown)
  | [] => rfl
  | b :: bs => by
    rw [nodeOfEach, renderBlocks, renderBlock_node b, renderBlocks_nodeOfEach bs]
    rfl

end

end Block

/-- Prose written as tokens in any way comes back as its Markdown, with nothing left out on the
way to the document and nothing skipped on the way back. -/
theorem ofJson_ofTokens_of_written {blocks : List Block} {tokens : List Token}
    (h : Block.EachWritten blocks tokens) :
    Rendering.ofJson (Node.ofTokens tokens).toJson = .ok ⟨markdown blocks, []⟩ ∧
      (SkippedNames.ofTokens tokens).names = [] := by
  constructor
  · have hnodes := Block.blocks_of_written blocks tokens h
    rw [Rendering.ofJson_ofTokens, hnodes, Block.rereadAll_nodeOfEach,
      Block.renderBlocks_nodeOfEach, ← joinNonempty_markdown]
    rfl
  · rw [SkippedNames.ofTokens, Block.skippedInBlocks_of_written blocks tokens h]
    rfl

/-- A cut text before a link in bold, above a quotation of a list from three and code. -/
theorem ofJson_ofTokens_of_written_nested :
    let cut : Run := ⟨none, .plain, "a\nb", by decide, by decide⟩
    let link : Run := ⟨some "u", .strong, "c", by decide, by decide⟩
    let phrase : Phrase := ⟨[cut, link], by decide, by simp [Run.marks, Style.marks, cut, link]⟩
    let item : Phrase := ⟨[⟨none, .emInStrong, "d", by decide, by decide⟩], by decide, .singleton _⟩
    let blocks : List Block :=
      [.heading 2 (by decide) (by decide) phrase,
        .quote (.ordered 3 [item, item] (by decide) (by decide))
          [.quote (.code (some "e") "f\n\ng") []]]
    let phraseTokens : List Token :=
      [.leaf "text" "a", .bare "softbreak", .leaf "text" "", .leaf "text" "b",
        .branchWith "link" [("url", .text "u")] [.branch "strong" [.leaf "text" "c"]]]
    let itemToken : Token :=
      .branch "list_item"
        [.branch "paragraph" [.branch "strong" [.branch "emphasis" [.leaf "text" "d"]]]]
    let tokens : List Token :=
      [.branchWith "heading" [("level", .int 2)] phraseTokens,
        .branch "block_quote"
          [.branchWith "list" [("ordered", .bool true), ("start", .int 3)] [itemToken, itemToken],
            .branch "block_quote"
              [.mk "block_code" (some "f\n\ng") none (some [("language", .text "e")]) none]]]
    Block.EachWritten blocks tokens ∧
      Rendering.ofJson (Node.ofTokens tokens).toJson =
        .ok ⟨"## a\nb[**c**](u)\n\n> 3. ***d***\n> 4. ***d***\n>\n" ++
          "> > ```e\n> > f\n> >\n> > g\n> > ```", []⟩ := by
  intro cut link phrase item blocks phraseTokens itemToken tokens
  have hcut : cut.Written
      [.leaf "text" "a", .bare "softbreak", .leaf "text" "", .leaf "text" "b"] :=
    Spells.leaf "a" (.softbreak rfl (.leaf "" (.leaf "b" .nil)))
  have hlink : link.Written
      [.branchWith "link" [("url", .text "u")] [.branch "strong" [.leaf "text" "c"]]] :=
    ⟨_, rfl, ⟨rfl, _, rfl, rfl, Spells.leaf "c" .nil⟩, rfl⟩
  have hphrase : phrase.Written phraseTokens := RunsWritten.cons hcut (RunsWritten.cons hlink .nil)
  have hitem : item.WrittenItem itemToken := by
    have hrun : Run.Written ⟨none, .emInStrong, "d", by decide, by decide⟩
        [.branch "strong" [.branch "emphasis" [.leaf "text" "d"]]] :=
      ⟨_, rfl, rfl, _, rfl, rfl, Spells.leaf "d" .nil⟩
    exact ⟨rfl, _, rfl, rfl, RunsWritten.cons hrun .nil⟩
  have hwritten : Block.EachWritten blocks tokens := by
    refine ⟨_, _, rfl, ⟨⟨rfl, hphrase⟩, rfl⟩, ?_⟩
    refine ⟨_, _, rfl, ⟨rfl, _, _, rfl, ⟨⟨rfl, .cons hitem (.cons hitem .nil)⟩, rfl, rfl⟩, ?_⟩, rfl⟩
    exact ⟨_, _, rfl, ⟨rfl, _, _, rfl, ⟨rfl, rfl, rfl⟩, rfl⟩, rfl⟩
  have hmarkdown : markdown blocks =
      "## a\nb[**c**](u)\n\n> 3. ***d***\n> 4. ***d***\n>\n" ++
        "> > ```e\n> > f\n> >\n> > g\n> > ```" := by
    simp only [blocks, phrase, item, cut, link]
    decide +kernel
  refine ⟨hwritten, ?_⟩
  obtain ⟨hrendering, -⟩ := ofJson_ofTokens_of_written hwritten
  rw [hrendering, hmarkdown]

end AdfMarkdown.Prose
