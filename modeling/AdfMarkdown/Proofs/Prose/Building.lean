import AdfMarkdown.Proofs.Building
import AdfMarkdown.Proofs.Consolidation
import AdfMarkdown.Proofs.Prose.Basic

/-! # The nodes of prose

However the text of a run is cut into tokens, consolidation makes one run of its pieces, and it
stops at the next run because that has other marks. So the tokens of a phrase give its runs, and
the tokens of blocks their nodes.
-/

namespace AdfMarkdown.Prose

open Node Token

/-- A text in front of nodes, made one with the first node if that has the same marks. -/
def consText (s : String) (marks : List Mark) (xs : List Node) : List Node :=
  if s = "" then xs else consMerged (.run s marks) xs

theorem consText_consText (s t : String) (marks : List Mark) (xs : List Node) :
    consText s marks (consText t marks xs) = consText (s ++ t) marks xs := by
  by_cases hs : s = ""
  · simp [consText, hs]
  by_cases ht : t = ""
  · simp [consText, ht]
  have hmerge : merge? (.run s marks) (.run t marks) = some (.run (s ++ t) marks) := by
    simp [merge?, run]
  have hst : s ++ t ≠ "" := by simp [hs]
  rw [consText, consText, consText, if_neg hs, if_neg ht, if_neg hst]
  exact consMerged_consMerged_of_some hmerge xs

theorem consolidate_text_append (s : String) (marks : List Mark) (xs : List Node) :
    consolidate ((if s = "" then [] else [.run s marks]) ++ xs) =
      consText s marks (consolidate xs) := by
  by_cases hs : s = ""
  · simp [consText, hs]
  · simp [consText, hs, consolidate_cons]

/-- The tokens of a text give the whole text, however it is cut. -/
theorem consolidate_spells {s : String} {ts : List Token} (h : Spells s ts) (marks : List Mark)
    (xs : List Node) :
    consolidate (inlineNodesOf marks ts ++ xs) = consText s marks (consolidate xs) := by
  -- By induction on the cut; the nodes that follow stay as they are.
  induction h with
  | nil => simp [inlineNodesOf, consText]
  | text hname _ ih =>
    rw [inlineNodesOf, inlineNodes_eq, if_pos hname, List.append_assoc, consolidate_text_append,
      ih, consText_consText]
  | @softbreak s t ts hname _ ih =>
    have ht : inlineNodes marks t = [.run "\n" marks] := by simp [inlineNodes_eq, hname]
    have hcons := consolidate_text_append "\n" marks (inlineNodesOf marks ts ++ xs)
    rw [if_neg (by decide), ih, consText_consText] at hcons
    rw [inlineNodesOf, ht, List.append_assoc]
    exact hcons

theorem inlineNodesOf_singleton {t : Token} (marks : List Mark)
    (h : t.name ∉ ["text", "codespan", "softbreak", "linebreak"]) :
    inlineNodesOf marks [t] = inlineNodesOf (marks ++ t.ownMarks) t.children := by
  simp only [List.mem_cons, List.not_mem_nil, or_false, not_or] at h
  obtain ⟨htext, hcode, hsoft, hline⟩ := h
  rw [inlineNodesOf, inlineNodesOf, List.append_nil, inlineNodes_eq, if_neg htext, if_neg hcode,
    if_neg hsoft, if_neg hline]

theorem ownMarks_strong {t : Token} (h : t.name = "strong") : t.ownMarks = [.strong] := by
  simp [ownMarks, h]

theorem ownMarks_emphasis {t : Token} (h : t.name = "emphasis") : t.ownMarks = [.em] := by
  simp [ownMarks, h]

theorem ownMarks_link {t : Token} (h : t.name = "link") {href : String}
    (hurl : t.attr? "url" = some (.text href)) : t.ownMarks = [.link href] := by
  simp [ownMarks, h, url, hurl, Json.text?]

theorem consolidate_style {s : String} {style : Style} {ts : List Token}
    (h : style.Written s ts) (marks : List Mark) (xs : List Node) :
    consolidate (inlineNodesOf marks ts ++ xs) =
      consText s (marks ++ style.marks) (consolidate xs) := by
  cases style with
  | plain =>
    rw [Style.marks, List.append_nil]
    exact consolidate_spells h marks xs
  | strong =>
    obtain ⟨t, rfl, hname, hts⟩ := h
    rw [inlineNodesOf_singleton marks (by simp [hname]), ownMarks_strong hname]
    exact consolidate_spells hts _ xs
  | em =>
    obtain ⟨t, rfl, hname, hts⟩ := h
    rw [inlineNodesOf_singleton marks (by simp [hname]), ownMarks_emphasis hname]
    exact consolidate_spells hts _ xs
  | emInStrong =>
    obtain ⟨t, rfl, hname, u, hu, hname', hts⟩ := h
    rw [inlineNodesOf_singleton marks (by simp [hname]), ownMarks_strong hname, hu,
      inlineNodesOf_singleton _ (by simp [hname']), ownMarks_emphasis hname', List.append_assoc]
    exact consolidate_spells hts _ xs
  | strongInEm =>
    obtain ⟨t, rfl, hname, u, hu, hname', hts⟩ := h
    rw [inlineNodesOf_singleton marks (by simp [hname]), ownMarks_emphasis hname, hu,
      inlineNodesOf_singleton _ (by simp [hname']), ownMarks_strong hname', List.append_assoc]
    exact consolidate_spells hts _ xs
  | code =>
    obtain ⟨t, rfl, hname, rfl⟩ := h
    have ht : inlineNodesOf marks [t] =
        if t.raw = "" then [] else [.run t.raw (marks ++ [.code])] := by
      simp [inlineNodesOf, inlineNodes_eq, hname]
    rw [ht]
    exact consolidate_text_append t.raw _ xs

theorem consolidate_run {r : Run} {ts : List Token} (h : r.Written ts) (xs : List Node) :
    consolidate (inlineNodesOf [] ts ++ xs) = consMerged r.node (consolidate xs) := by
  have hnode : consText r.text r.marks (consolidate xs) = consMerged r.node (consolidate xs) :=
    if_neg r.text_ne
  rw [← hnode, Run.marks]
  unfold Run.Written at h
  cases hlink : r.link with
  | none =>
    rw [hlink] at h
    exact consolidate_style h [] xs
  | some href =>
    rw [hlink] at h
    obtain ⟨t, rfl, ⟨hname, hts⟩, hurl⟩ := h
    rw [inlineNodesOf_singleton [] (by simp [hname]), ownMarks_link hname hurl]
    exact consolidate_style hts _ xs

/-- The tokens of runs with other marks than their neighbours give these runs. -/
theorem consolidate_runs {rs : List Run} {ts : List Token} (h : RunsWritten rs ts) :
    rs.IsChain (fun r r' => r.marks ≠ r'.marks) →
      consolidate (inlineNodesOf [] ts) = rs.map Run.node := by
  induction h with
  | nil => intro _; rfl
  | @cons r rs ts us hr _ ih =>
    intro happart
    have happend : inlineNodesOf [] (ts ++ us) = inlineNodesOf [] ts ++ inlineNodesOf [] us := by
      simp [inlineNodesOf_eq_flatMap]
    rw [happend, consolidate_run hr, ih happart.tail]
    cases rs with
    | nil => rfl
    | cons r' rs =>
      have hne : r.marks ≠ r'.marks := (List.isChain_cons_cons.mp happart).1
      exact consMerged_of_none (by simp [merge?, Run.node, run, hne]) _

theorem Phrase.inlineContent_eq {p : Phrase} {ts : List Token} (h : p.Written ts) :
    inlineContent ts = p.nodes := consolidate_runs h p.apart

theorem Phrase.nodes_ne_nil (p : Phrase) : p.nodes ≠ [] := by
  simpa [Phrase.nodes] using p.runs_ne

theorem Phrase.textBlock?_eq {p : Phrase} {t : Token} (h : p.Written t.children) (kind : NodeKind)
    (attrs : Fields) : textBlock? kind attrs t = some (.branch kind p.nodes attrs) := by
  rw [textBlock?_eq_some_iff, inlineContent_eq h]
  exact ⟨p.nodes_ne_nil, rfl⟩

theorem Phrase.items_eq {ps : List Phrase} {ts : List Token}
    (h : List.Forall₂ Phrase.WrittenItem ps ts) : items ts = ps.map Phrase.item := by
  induction h with
  | nil => simp [items]
  | @cons p t ps ts hp _ ih =>
    obtain ⟨hname, u, hu, hpar, hwritten⟩ := hp
    have hblock : block? u = some (.branch .paragraph p.nodes []) := by
      rw [block?_eq, if_pos hpar]
      exact textBlock?_eq hwritten _ _
    rw [items_eq_map] at ih ⊢
    rw [List.filter_cons_of_pos (by simpa using hname), List.map_cons, ih, Token.item, hu,
      blocks_eq_filterMap]
    simp [hblock, Phrase.item]

namespace Block

theorem codeAttrs_eq {language : Option String} {t : Token}
    (h : t.attr? "language" = language.map .text) :
    t.codeAttrs =
      if language.getD "" = "" then [] else [("language", .text (language.getD ""))] := by
  rw [codeAttrs, h]
  cases language with
  | none => rfl
  | some s => by_cases hs : s = "" <;> simp [hs, Json.truthy]

mutual

theorem block?_of_written : ∀ (b : Block) (t : Token), b.Written t → block? t = some b.node
  | paragraph p, t, h => by
    obtain ⟨hname, hp⟩ := h
    rw [block?_eq, if_pos hname]
    exact Phrase.textBlock?_eq hp _ _
  | heading level _ _ p, t, h => by
    obtain ⟨⟨hname, hp⟩, hlevel⟩ := h
    have hattrs : t.headingAttrs = [("level", .int level)] := by simp [headingAttrs, hlevel]
    rw [block?_eq, hname, if_neg (by decide), if_pos rfl, hattrs]
    exact Phrase.textBlock?_eq hp _ _
  | bullet items _, t, h => by
    obtain ⟨⟨hname, hitems⟩, hord⟩ := h
    have hattrs : t.listAttrs = [] := by simp [listAttrs, hord]
    simp [block?_eq, hname, list, hord, hattrs, Phrase.items_eq hitems, node]
  | ordered start items _ _, t, h => by
    obtain ⟨⟨hname, hitems⟩, hord, hstart⟩ := h
    have hv : (t.attr? "start").getD (.int 1) = .int start := by
      by_cases hs : start = 1 <;> simp [hstart, hs]
    simp [block?_eq, hname, list, hord, listAttrs_eq hord hv, Phrase.items_eq hitems, node]
  | quote first rest, t, h => by
    obtain ⟨hname, u, us, hchildren, hfirst, hrest⟩ := h
    have hblocks : blocks t.children = first.node :: nodeOfEach rest := by
      rw [hchildren, blocks, block?_of_written first u hfirst, blocks_of_written rest us hrest]
    simp [block?_eq, hname, quotation, hblocks, node]
  | code language text, t, h => by
    obtain ⟨hname, rfl, hlanguage⟩ := h
    simp [block?_eq, hname, codeBlock, codeAttrs_eq hlanguage, node]

theorem blocks_of_written : ∀ (bs : List Block) (ts : List Token), EachWritten bs ts →
    blocks ts = nodeOfEach bs
  | [], ts, h => by
    obtain rfl : ts = [] := h
    simp [blocks, nodeOfEach]
  | b :: bs, ts, h => by
    obtain ⟨u, us, rfl, hb, hbs⟩ := h
    rw [blocks, block?_of_written b u hb, blocks_of_written bs us hbs, nodeOfEach]

end

theorem skippedInItems_of_written {ps : List Phrase} {ts : List Token}
    (h : List.Forall₂ Phrase.WrittenItem ps ts) : Token.skippedInItems ts = [] := by
  induction h with
  | nil => simp [Token.skippedInItems]
  | @cons p t ps ts hp _ ih =>
    obtain ⟨hname, u, hu, hpar, -⟩ := hp
    have hblock : Token.skippedInBlock u = [] := by simp [Token.skippedInBlock_eq, hpar]
    rw [Token.skippedInItems_cons, if_pos hname, hu, ih]
    simp [Token.skippedInBlocks, hblock]

mutual

theorem skippedInBlock_of_written : ∀ (b : Block) (t : Token), b.Written t →
    Token.skippedInBlock t = []
  | paragraph p, t, h => by simp [Token.skippedInBlock_eq, h.1]
  | heading level _ _ p, t, h => by simp [Token.skippedInBlock_eq, h.1.1]
  | bullet items _, t, h => by
    simp [Token.skippedInBlock_eq, h.1.1, skippedInItems_of_written h.1.2]
  | ordered start items _ _, t, h => by
    simp [Token.skippedInBlock_eq, h.1.1, skippedInItems_of_written h.1.2]
  | quote first rest, t, h => by
    obtain ⟨hname, u, us, hchildren, hfirst, hrest⟩ := h
    have hblocks : Token.skippedInBlocks t.children = [] := by
      rw [hchildren, Token.skippedInBlocks, skippedInBlock_of_written first u hfirst,
        skippedInBlocks_of_written rest us hrest, List.append_nil]
    simp [Token.skippedInBlock_eq, hname, hblocks]
  | code language text, t, h => by simp [Token.skippedInBlock_eq, h.1]

theorem skippedInBlocks_of_written : ∀ (bs : List Block) (ts : List Token), EachWritten bs ts →
    Token.skippedInBlocks ts = []
  | [], ts, h => by
    obtain rfl : ts = [] := h
    simp [Token.skippedInBlocks]
  | b :: bs, ts, h => by
    obtain ⟨u, us, rfl, hb, hbs⟩ := h
    rw [Token.skippedInBlocks, skippedInBlock_of_written b u hb,
      skippedInBlocks_of_written bs us hbs, List.append_nil]

end

end Block

end AdfMarkdown.Prose
