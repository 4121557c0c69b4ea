import AdfMarkdown.Proofs.Normalising
import AdfMarkdown.Proofs.Prose.Outline
import AdfMarkdown.Proofs.Prose.Scanning

/-! # The tokens of prose

The blocks that prose is read as have tokens that write it: neighbouring runs differ in their
marks, so that no text runs into the next one, and a link finds its destination in the table.
-/

namespace AdfMarkdown.Prose

open Markdown LinkDestination

variable {table : Table} {ctx : InlineContext}

/-! ## Runs -/

theorem Run.marks_eq_nil_iff (r : Run) : r.marks = [] ↔ r.link = none ∧ r.style = .plain := by
  obtain ⟨link, style, text, hlink, htext⟩ := r
  cases link <;> cases style <;> simp [Run.marks, Style.marks]

theorem Run.Read.exists_piece {r : Run} {xs : List Inline} (h : r.Read xs) (hr : r.marks ≠ []) :
    ∃ x, xs = [x] ∧ startsPlain [x] = false := by
  obtain ⟨link, style, text, hlink, htext⟩ := r
  cases link with
  | some href =>
    obtain ⟨kids, rfl, -⟩ := h
    exact ⟨_, rfl, rfl⟩
  | none =>
    cases style with
    | plain => exact absurd rfl hr
    | code =>
      have hxs : xs = [.code text.toList] := h
      exact ⟨_, hxs, rfl⟩
    | strong | em | emInStrong | strongInEm =>
      obtain ⟨kids, rfl, -⟩ := h
      exact ⟨_, rfl, rfl⟩

theorem consMerged_of_not_plain {x : Inline} (h : startsPlain [x] = false) (rest : List Inline) :
    Inline.consMerged x rest = x :: rest := by
  cases x <;> first | rfl | cases h

theorem mergeTexts_append (xs ys : List Inline) :
    Inline.mergeTexts (xs ++ ys) = xs.foldr Inline.consMerged (Inline.mergeTexts ys) :=
  List.foldr_append

/-- Making neighbouring texts one does not reach from a run to the next one. -/
theorem RunsRead.mergeTexts {rs : List Run} {xs : List Inline} (h : RunsRead rs xs) :
    rs.IsChain (fun r r' => r.marks ≠ r'.marks) → RunsRead rs (Inline.mergeTexts xs) ∧
      ((∀ r ∈ rs.head?, r.marks ≠ []) → startsPlain (Inline.mergeTexts xs) = false) := by
  induction h with
  | nil => exact fun _ => ⟨.nil, fun _ => rfl⟩
  | @cons r rs xs ys hr _ ih =>
    intro happart
    obtain ⟨hrest, hplain⟩ := ih happart.tail
    rw [mergeTexts_append]
    by_cases hmarks : r.marks = []
    · obtain ⟨hlink, hstyle⟩ := r.marks_eq_nil_iff.mp hmarks
      have hspelled : Spelled r.text.toList xs := by
        rw [Run.Read, hlink, hstyle] at hr
        exact hr
      have hnext : ∀ r' ∈ rs.head?, r'.marks ≠ [] := by
        intro r' hr' hnil
        cases rs with
        | nil => cases hr'
        | cons r'' rs =>
          obtain rfl := Option.some.inj hr'
          exact (List.isChain_cons_cons.mp happart).1 (hmarks.trans hnil.symm)
      obtain ⟨zs, hzs, heq⟩ := hspelled.foldr_consMerged (hplain hnext)
      refine ⟨?_, fun hhead => absurd hmarks (hhead r rfl)⟩
      rw [heq]
      refine .cons ?_ hrest
      rw [Run.Read, hlink, hstyle]
      exact hzs
    · obtain ⟨x, rfl, hx⟩ := hr.exists_piece hmarks
      rw [List.foldr_cons, List.foldr_nil, consMerged_of_not_plain hx]
      refine ⟨.cons hr hrest, fun _ => ?_⟩
      cases x <;> first | rfl | cases hx

def Finds (table : Table) (ds : List String) : Prop :=
  ∀ d ∈ ds, Table.get? (Url.encodeText d) table = some d

theorem getD_canonicalChildren (table : Table) (ts : List Token) :
    (Token.canonicalChildren table (some ts)).getD [] = Token.canonicalList table ts :=
  Token.getD_canonicalChildren (some ts)

theorem canonicalList_append (ts us : List Token) :
    Token.canonicalList table (ts ++ us) =
      Token.canonicalList table ts ++ Token.canonicalList table us := by
  simp [Token.canonicalList_eq_filterMap]

theorem listToTokens_append (xs ys : List Inline) :
    Inline.listToTokens (xs ++ ys) = Inline.listToTokens xs ++ Inline.listToTokens ys := by
  induction xs with
  | nil => rfl
  | cons x xs ih => simp [Inline.listToTokens, ih]

theorem Spelled.spells (table : Table) {s : List Char} {xs : List Inline} (h : Spelled s xs) :
    Spells (String.ofList s) (Token.canonicalList table (Inline.listToTokens xs)) := by
  induction h with
  | nil => exact .nil
  | text t h ih =>
    rw [String.ofList_append]
    exact Spells.leaf _ ih
  | @softBreak s xs h ih =>
    have hfeed : String.ofList ('\n' :: s) = "\n" ++ String.ofList s := by
      rw [← String.toList_inj]
      simp
    rw [hfeed]
    exact .softbreak rfl ih

theorem canonicalList_branch (table : Table) {name : String}
    (h : name = "strong" ∨ name = "emphasis") (ts : List Token) :
    ∃ t, Token.canonicalList table [.branch name ts] = [t] ∧ t.name = name ∧
      t.children = Token.canonicalList table ts := by
  rcases h with rfl | rfl <;>
    exact ⟨_, rfl, rfl, getD_canonicalChildren table ts⟩

theorem Style.Read.written (table : Table) {style : Style} {text : String} {xs : List Inline}
    (h : style.Read text.toList xs) :
    style.Written text (Token.canonicalList table (Inline.listToTokens xs)) := by
  have hspells : ∀ {kids : List Inline}, Spelled text.toList kids →
      Spells text (Token.canonicalList table (Inline.listToTokens kids)) := by
    intro kids hkids
    simpa using hkids.spells table
  cases style with
  | plain => exact hspells h
  | strong =>
    obtain ⟨kids, rfl, hkids⟩ := h
    obtain ⟨t, ht, hname, hchildren⟩ := canonicalList_branch table (.inl rfl)
      (Inline.listToTokens kids)
    exact ⟨t, ht, hname, hchildren ▸ hspells hkids⟩
  | em =>
    obtain ⟨kids, rfl, hkids⟩ := h
    obtain ⟨t, ht, hname, hchildren⟩ := canonicalList_branch table (.inr rfl)
      (Inline.listToTokens kids)
    exact ⟨t, ht, hname, hchildren ▸ hspells hkids⟩
  | emInStrong =>
    obtain ⟨kids, rfl, hkids⟩ := h
    obtain ⟨u, hu, hname', hchildren'⟩ := canonicalList_branch table (.inr rfl)
      (Inline.listToTokens kids)
    obtain ⟨t, ht, hname, hchildren⟩ := canonicalList_branch table (.inl rfl)
      (Inline.listToTokens [.emphasis kids])
    exact ⟨t, ht, hname, u, hchildren.trans hu, hname', hchildren' ▸ hspells hkids⟩
  | strongInEm =>
    obtain ⟨kids, rfl, hkids⟩ := h
    obtain ⟨u, hu, hname', hchildren'⟩ := canonicalList_branch table (.inl rfl)
      (Inline.listToTokens kids)
    obtain ⟨t, ht, hname, hchildren⟩ := canonicalList_branch table (.inr rfl)
      (Inline.listToTokens [.strong kids])
    exact ⟨t, ht, hname, u, hchildren.trans hu, hname', hchildren' ▸ hspells hkids⟩
  | code =>
    obtain rfl := h
    exact ⟨.leaf "codespan" (String.ofList text.toList), rfl, rfl, String.ofList_toList⟩

theorem Run.Read.written {r : Run} {xs : List Inline} (h : r.Read xs)
    (hfinds : Finds table r.link.toList) :
    r.Written (Token.canonicalList table (Inline.listToTokens xs)) := by
  unfold Run.Read at h
  unfold Run.Written
  cases hlink : r.link with
  | none =>
    rw [hlink] at h
    exact h.written table
  | some href =>
    rw [hlink] at h hfinds
    obtain ⟨kids, rfl, hkids⟩ := h
    have hget := hfinds href List.mem_cons_self
    have hchildren := getD_canonicalChildren table (Inline.listToTokens kids)
    have hattrs : Token.canonicalAttrs table "link" (some [("url", .text (Url.encodeText href))])
        (some (Inline.listToTokens kids)) = some [("url", .text href)] := by
      calc Token.canonicalAttrs table "link" (some [("url", .text (Url.encodeText href))])
            (some (Inline.listToTokens kids))
          = some [("url", .text (Token.writtenUrl table (Url.encodeText href)
              (Token.soleText? (some (Inline.listToTokens kids)))))] := rfl
        _ = some [("url", .text href)] := by rw [Token.writtenUrl_of_get? hget]
    refine ⟨.mk "link" none none (some [("url", .text href)])
      (Token.canonicalChildren table (some (Inline.listToTokens kids))), ?_, ⟨rfl, ?_⟩, rfl⟩
    · rw [← hattrs]
      rfl
    · have hkids := hkids.written table
      rw [← hchildren] at hkids
      exact hkids

theorem RunsRead.written {rs : List Run} {xs : List Inline} (h : RunsRead rs xs) :
    Finds table (rs.filterMap Run.link) →
      RunsWritten rs (Token.canonicalList table (Inline.listToTokens xs)) := by
  induction h with
  | nil => exact fun _ => .nil
  | @cons r rs xs ys hr _ ih =>
    intro hfinds
    have hsplit : (r :: rs).filterMap Run.link = r.link.toList ++ rs.filterMap Run.link := by
      cases hlink : r.link <;> simp [hlink]
    rw [hsplit] at hfinds
    rw [listToTokens_append, canonicalList_append]
    exact .cons (hr.written fun d hd => hfinds d (List.mem_append_left _ hd))
      (ih fun d hd => hfinds d (List.mem_append_right _ hd))

/-! ## Phrases -/

section Phrases

variable (hctx : ctx.definitions = []) (hurls : ctx.extensions.bareUrls = true)

include hctx hurls

theorem Phrase.Legible.written_readInline {p : Phrase} (hp : p.Legible)
    (hfinds : Finds table (p.runs.filterMap Run.link)) :
    p.Written (Token.canonicalList table
      (Inline.listToTokens (readInline ctx (chars p.runs)))) := by
  obtain ⟨xs, hread, hruns⟩ := readInline_chars hctx hurls hp.runs
  rw [hread]
  exact (hruns.mergeTexts p.apart).1.written hfinds

theorem Phrase.Legible.written {p : Phrase} (hp : p.Legible)
    (hfinds : Finds table (p.runs.filterMap Run.link)) (after : List Char)
    (hafter : ∀ c ∈ after, BlockStart.isEdge c = true) :
    p.Written (Token.canonicalList table
      (Markdown.Block.textTokens ctx (chars p.runs ++ after))) := by
  have hne : chars p.runs ≠ [] := by
    rw [← p.toList_markdown]
    simpa using p.markdown_ne_empty
  have htrim : Text.trim BlockStart.isEdge (chars p.runs ++ after) = chars p.runs := by
    have hleft : (chars p.runs ++ after).dropWhile BlockStart.isEdge = chars p.runs ++ after := by
      obtain ⟨c, s, hchars⟩ := List.exists_cons_of_ne_nil hne
      have hfirst : Text.isSpace c = false := by
        have hfirst := hp.first
        rwa [hchars] at hfirst
      rw [hchars]
      exact List.dropWhile_cons_of_neg (by simpa using isEdge_of_not_isSpace hfirst)
    rw [Text.trim, Text.trimLeft, hleft, Text.trimRight_append hafter]
    exact Text.trimRight_eq_self fun c hc => isEdge_of_not_isSpace (hp.last c hc)
  unfold Markdown.Block.textTokens
  simp only [htrim]
  rw [if_neg (by simpa using hne)]
  exact hp.written_readInline hctx hurls hfinds

end Phrases

/-! ## Blocks -/

theorem Finds.of_append {ds ds' : List String} (h : Finds table (ds ++ ds')) :
    Finds table ds ∧ Finds table ds' :=
  List.forall_mem_append.mp h

section Blocks

variable (hctx : ctx.definitions = []) (hurls : ctx.extensions.bareUrls = true)

include hctx hurls

/-- The token of a paragraph, whether it is one of the blocks or the text of an item. -/
theorem Phrase.Flows.written {p : Phrase} (hp : p.Flows)
    (hfinds : Finds table (p.runs.filterMap Run.link)) (depth : Nat) :
    ∃ t, Token.canonicalList table (Markdown.Block.toTokens ctx depth false
      (.paragraph (chars p.runs ++ ['\n']))) = [t] ∧ Holds "paragraph" p.Written t := by
  have hwritten := hp.toLegible.written hctx hurls hfinds ['\n'] (by simp [BlockStart.isEdge])
  have hchildren := getD_canonicalChildren table
    (Markdown.Block.textTokens ctx (chars p.runs ++ ['\n']))
  rw [← hchildren] at hwritten
  exact ⟨_, rfl, rfl, hwritten⟩

theorem Phrase.FitsItem.written {p : Phrase} (hp : p.FitsItem)
    (hfinds : Finds table (p.runs.filterMap Run.link)) (depth : Nat) :
    ∃ t, Token.canonicalList table (Markdown.Block.itemTokens ctx depth [p.readItem]) = [t] ∧
      p.WrittenItem t := by
  have hbox : Markdown.Block.checked? ctx p.readItem = none := by
    simp [Markdown.Block.checked?, Phrase.readItem, hp.no_box]
  obtain ⟨u, hu, hparagraph⟩ := hp.toFlows.written hctx hurls hfinds depth
  have hlist : Markdown.Block.listToTokens ctx depth false p.readItem =
      Markdown.Block.toTokens ctx depth false (.paragraph (chars p.runs ++ ['\n'])) :=
    List.append_nil _
  have hchildren : (Token.canonicalChildren table
      (some (Markdown.Block.listToTokens ctx depth false p.readItem))).getD [] = [u] := by
    rw [getD_canonicalChildren, hlist, hu]
  refine ⟨.mk "list_item" none none none (Token.canonicalChildren table
    (some (Markdown.Block.listToTokens ctx depth false p.readItem))), ?_, rfl, u, hchildren,
    hparagraph⟩
  rw [Markdown.Block.itemTokens, hbox]
  rfl

theorem forall₂_writtenItem {ps : List Phrase} (hps : ∀ p ∈ ps, p.FitsItem)
    (hfinds : Finds table (ps.flatMap fun p => p.runs.filterMap Run.link)) (depth : Nat) :
    List.Forall₂ Phrase.WrittenItem ps (Token.canonicalList table
      (Markdown.Block.itemTokens ctx depth (ps.map Phrase.readItem))) := by
  induction ps with
  | nil => exact .nil
  | cons p ps ih =>
    rw [List.forall_mem_cons] at hps
    rw [List.flatMap_cons] at hfinds
    obtain ⟨t, ht, hitem⟩ := hps.1.written hctx hurls hfinds.of_append.1 depth
    have hsplit : Markdown.Block.itemTokens ctx depth ((p :: ps).map Phrase.readItem) =
        Markdown.Block.itemTokens ctx depth [p.readItem] ++
          Markdown.Block.itemTokens ctx depth (ps.map Phrase.readItem) := rfl
    rw [hsplit, canonicalList_append, ht]
    exact .cons hitem (ih hps.2 hfinds.of_append.2)

namespace Block

theorem written_heading {level : Nat} {h1 : 1 ≤ level} {h6 : level ≤ 6} {p : Phrase}
    (hp : p.FitsHeading) (hfinds : Finds table (p.runs.filterMap Run.link)) (depth : Nat) :
    ∃ t, Token.canonicalList table (Markdown.Block.toTokens ctx depth false
      (heading level h1 h6 p).read) = [t] ∧ (heading level h1 h6 p).Written t := by
  have hwritten := hp.toLegible.written hctx hurls hfinds [] (by simp)
  have hchildren := getD_canonicalChildren table
    (Markdown.Block.textTokens ctx (chars p.runs ++ []))
  rw [← hchildren, List.append_nil] at hwritten
  exact ⟨_, rfl, ⟨rfl, hwritten⟩, rfl⟩

omit hctx hurls in
theorem firstWord_language {language : String} (h : isLanguage language.toList = true) :
    language ≠ "" ∧ Text.firstWord language.toList = language.toList := by
  have hspaces := isLanguage_cases h
  have hfirst : language.toList.dropWhile Text.isSpace = language.toList :=
    Text.dropWhile_eq_self fun c hc => (hspaces c (List.mem_of_mem_head? hc)).1
  constructor
  · rintro rfl
    cases h
  · rw [Text.firstWord, hfirst, List.takeWhile_eq_self_iff]
    intro c hc
    rw [(hspaces c hc).1]
    rfl

omit hctx hurls in
theorem written_code {language : Option String} {text : String}
    (h : (code language text).Legible) (depth : Nat) :
    ∃ t, Token.canonicalList table (Markdown.Block.toTokens ctx depth false
      (code language text).read) = [t] ∧ (code language text).Written t := by
  have hraw : Token.codeText (String.ofList (text.toList ++ ['\n'])) = text := by
    simp [Token.codeText]
  cases language with
  | none =>
    refine ⟨.mk "block_code" (some text) none none none, ?_, rfl, rfl, rfl⟩
    calc Token.canonicalList table (Markdown.Block.toTokens ctx depth false (code none text).read)
        = [Token.canonicalCode (some (String.ofList (text.toList ++ ['\n']))) (some "fenced")
            none] := rfl
      _ = [.mk "block_code" (some text) none none none] := by
        rw [Token.canonicalCode, Option.getD_some, hraw]
        rfl
  | some l =>
    obtain ⟨hne, hword⟩ := firstWord_language (h.1 l rfl)
    have hattrs : Token.infoLanguage (some [("info", .text (String.ofList l.toList))]) =
        some [("language", .text l)] := by
      have hinfo : ((Fields.get? "info" [("info", Json.text (String.ofList l.toList))]).bind
          Json.text?).getD "" = l := String.ofList_toList
      rw [Token.infoLanguage, Option.getD_some, hinfo]
      simp [hword, hne]
    refine ⟨.mk "block_code" (some text) none (some [("language", .text l)]) none, ?_, rfl, rfl,
      rfl⟩
    have hempty : l.toList.isEmpty = false := by simpa using hne
    calc Token.canonicalList table (Markdown.Block.toTokens ctx depth false
          (code (some l) text).read)
        = [Token.canonicalCode (some (String.ofList (text.toList ++ ['\n']))) (some "fenced")
            (if l.toList.isEmpty then none
              else some [("info", .text (String.ofList l.toList))])] := rfl
      _ = [.mk "block_code" (some text) none (some [("language", .text l)]) none] := by
        rw [hempty, if_neg Bool.false_ne_true, Token.canonicalCode, Option.getD_some, hraw, hattrs]
        rfl

theorem written_list {ps : List Phrase} (hps : ∀ p ∈ ps, p.FitsItem)
    (hfinds : Finds table (ps.flatMap fun p => p.runs.filterMap Run.link)) (sign : ListSign)
    (start depth : Nat) :
    ∃ t, Token.canonicalList table (Markdown.Block.toTokens ctx depth false
      (.list sign start (ps.map Phrase.readItem))) = [t] ∧
      Holds "list" (List.Forall₂ Phrase.WrittenItem ps) t ∧
      (∀ c, sign = .bullet c → t.ordered = false) ∧
      ∀ c, sign = .number c → t.ordered = true ∧
        t.attr? "start" = if start = 1 then none else some (.int start) := by
  have hitems := forall₂_writtenItem hctx hurls hps hfinds (depth + 1)
  have hchildren := getD_canonicalChildren table
    (Markdown.Block.itemTokens ctx (depth + 1) (ps.map Phrase.readItem))
  rw [← hchildren] at hitems
  refine ⟨_, rfl, ⟨rfl, hitems⟩, ?_, ?_⟩
  · rintro c rfl
    rfl
  · rintro c rfl
    refine ⟨rfl, ?_⟩
    by_cases hstart : start = 1
    · subst hstart
      rfl
    · have hne : (start != 1) = true := by simpa using hstart
      simp only [Token.attr?, Token.attrs?, hne, hstart, if_false, Bool.and_true, if_true]
      rfl

end Block

end Blocks

namespace Block

mutual

/-- The blocks that prose is read as have tokens that write it. -/
theorem written (hctx : ctx.definitions = []) (hurls : ctx.extensions.bareUrls = true) :
    ∀ (b : Block) (depth : Nat), b.Legible → Finds table b.destinations → ∃ t,
      Token.canonicalList table (Markdown.Block.toTokens ctx depth false b.read) = [t] ∧
      b.Written t
  | paragraph p, depth, h, hfinds => Phrase.Flows.written hctx hurls h hfinds depth
  | heading .., depth, h, hfinds => written_heading hctx hurls h hfinds depth
  | bullet items _, depth, h, hfinds => by
    obtain ⟨t, ht, hitems, hordered, -⟩ :=
      written_list hctx hurls h hfinds (.bullet '-') 1 depth
    exact ⟨t, ht, hitems, hordered '-' rfl⟩
  | ordered start items _ _, depth, h, hfinds => by
    obtain ⟨t, ht, hitems, -, hordered⟩ :=
      written_list hctx hurls h hfinds (.number '.') start depth
    exact ⟨t, ht, hitems, hordered '.' rfl⟩
  | quote first rest, depth, h, hfinds => by
    obtain ⟨u, hu, hfirst⟩ := written hctx hurls first (depth + 1) h.1 hfinds.of_append.1
    have hrest := eachWritten hctx hurls rest (depth + 1) first.isList h.2.2 hfinds.of_append.2
    have hchildren := getD_canonicalChildren table (Markdown.Block.listToTokens ctx (depth + 1)
      false (first.read :: readAfter first.isList rest))
    rw [Markdown.Block.listToTokens, canonicalList_append, hu] at hchildren
    exact ⟨_, rfl, rfl, u, _, hchildren, hfirst, hrest⟩
  | code .., depth, h, _ => written_code h depth

theorem eachWritten (hctx : ctx.definitions = []) (hurls : ctx.extensions.bareUrls = true) :
    ∀ (bs : List Block) (depth : Nat) (isTaken : Bool), EachLegible bs →
      Finds table (destinationsOfEach bs) → EachWritten bs (Token.canonicalList table
        (Markdown.Block.listToTokens ctx depth false (readAfter isTaken bs)))
  | [], _, _, _, _ => rfl
  | b :: bs, depth, isTaken, h, hfinds => by
    obtain ⟨t, ht, hb⟩ := written hctx hurls b depth h.1 hfinds.of_append.1
    have hbs := eachWritten hctx hurls bs depth b.isList h.2.2 hfinds.of_append.2
    refine ⟨t, _, ?_, hb, hbs⟩
    have hread : Token.canonicalList table (Markdown.Block.listToTokens ctx depth false
        (readAfter isTaken (b :: bs))) = Token.canonicalList table
          (Markdown.Block.listToTokens ctx depth false (b.read :: readAfter b.isList bs)) := by
      cases isTaken <;> rfl
    rw [hread, Markdown.Block.listToTokens, canonicalList_append, ht]
    rfl

end

end Block

end AdfMarkdown.Prose
