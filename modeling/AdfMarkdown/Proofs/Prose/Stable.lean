import AdfMarkdown.Conversion
import AdfMarkdown.Proofs.Prose.Links
import AdfMarkdown.Proofs.Prose.RoundTrip
import AdfMarkdown.Proofs.Prose.Tokens

/-! # Stable prose

Legible prose is read as the blocks it was printed from, and these are printed as the same text
again. So where a round trip gives legible prose, it gives the same text however often it is made.
-/

namespace AdfMarkdown.Prose

open Markdown

theorem definitionsOfItems_readItem (ps : List Phrase) :
    Markdown.Block.definitionsOfItems (ps.map Phrase.readItem) = [] := by
  induction ps with
  | nil => rfl
  | cons p ps ih => exact ih

namespace Block

mutual

theorem definitions_read : ∀ b : Block, b.read.definitions = []
  | paragraph _ | heading .. | code .. => rfl
  | bullet items _ | ordered _ items _ _ => definitionsOfItems_readItem items
  | quote first rest => by
    rw [read, Markdown.Block.definitions, Markdown.Block.definitionsOf, definitions_read first,
      definitionsOf_readAfter first.isList rest]
    rfl

theorem definitionsOf_readAfter : ∀ (isTaken : Bool) (bs : List Block),
    Markdown.Block.definitionsOf (readAfter isTaken bs) = []
  | _, [] => rfl
  | isTaken, b :: bs => by
    have hrest := definitionsOf_readAfter b.isList bs
    have hfirst := definitions_read b
    cases isTaken <;>
      simp [readAfter, Markdown.Block.definitionsOf, Markdown.Block.definitions, hfirst, hrest]

end

end Block

variable {blocks : List Block}

/-- The tokens of legible prose write its blocks. -/
theorem Legible.eachWritten_tokens (h : Legible blocks) {ext : Extensions}
    (hurls : ext.bareUrls = true) :
    Block.EachWritten blocks (Conversion.tokens (Markdown.read ext) (markdown blocks)) := by
  have hblocks : readBlocks ext (markdown blocks).toList = Block.readAfter true blocks :=
    readBlocks_markdown h
  unfold Conversion.tokens Markdown.read
  simp only [hblocks, Block.definitionsOf_readAfter]
  exact Block.eachWritten rfl hurls blocks 0 true h.each fun d hd => h.get?_table hd

/-- Legible prose comes back from a document as it is. -/
theorem Legible.roundTrip_eq (h : Legible blocks) {ext : Extensions}
    (hurls : ext.bareUrls = true) :
    roundTrip (Markdown.read ext) (markdown blocks) = .ok ⟨markdown blocks, []⟩ := by
  have hnodes := Block.blocks_of_written blocks _ (h.eachWritten_tokens hurls)
  unfold roundTrip Conversion.ofMarkdown Conversion.ofTokens Conversion.json
  rw [Rendering.ofJson_ofTokens, hnodes, Block.rereadAll_nodeOfEach,
    Block.renderBlocks_nodeOfEach, ← joinNonempty_markdown]
  rfl

theorem warnings_of_roundTrip {parser : Parser} {m : String} {r : Rendering}
    (h : roundTrip parser m = .ok r) : r.warnings = [] := by
  unfold roundTrip Conversion.ofMarkdown Conversion.ofTokens Conversion.json at h
  rw [Rendering.ofJson_ofTokens] at h
  cases hparts : Node.renderBlocks (Node.rereadAll (Token.blocks
      (Conversion.tokens parser m))) with
  | error e =>
    rw [hparts] at h
    cases h
  | ok parts =>
    rw [hparts] at h
    cases h
    rfl

theorem exists_of_toOption {x : Except RenderError Rendering} {s : String}
    (h : x.toOption.map Rendering.markdown = some s) : ∃ r, x = .ok r ∧ r.markdown = s := by
  cases x with
  | error e => cases h
  | ok r => exact ⟨r, rfl, Option.some.inj h⟩

/-- Where a round trip gives legible prose, the next one gives the same. -/
theorem roundTrip_stable {m : String} {r : Rendering} {blocks : List Block}
    (hm : roundTrip .default m = .ok r) (hr : r.markdown = markdown blocks) (h : Legible blocks) :
    roundTrip .default r.markdown = .ok r := by
  have hwarnings := warnings_of_roundTrip hm
  obtain ⟨text, warnings⟩ := r
  obtain rfl : text = markdown blocks := hr
  obtain rfl : warnings = [] := hwarnings
  exact h.roundTrip_eq rfl

/-- Headings, lists and fences of other kinds and lazy lines, which change once only. -/
theorem roundTrip_stable_nested :
    let plain (s : String) (h : s ≠ "") : Run := ⟨none, .plain, s, by decide, h⟩
    let title : Phrase := ⟨[plain "Title" (by decide)], by decide, .singleton _⟩
    let three : Phrase := ⟨[plain "three\nlazy" (by decide)], by decide, .singleton _⟩
    let one : Phrase := ⟨[plain "one " (by decide), ⟨none, .em, "two", by decide, by decide⟩,
      plain " " (by decide), ⟨some "u", .plain, "l", by decide, by decide⟩], by decide, by decide⟩
    let lazy : Phrase := ⟨[plain "a " (by decide), ⟨none, .code, "b", by decide, by decide⟩,
      plain "\nlazy" (by decide)], by decide, by decide⟩
    let deep : Phrase := ⟨[plain "deep " (by decide),
      ⟨none, .strongInEm, "c", by decide, by decide⟩], by decide, by decide⟩
    let blocks : List Block :=
      [.heading 1 (by decide) (by decide) title, .bullet [one, three] (by decide),
        .ordered 2 [three, three] (by decide) (by decide),
        .quote (.paragraph lazy) [.quote (.paragraph deep) []], .code (some "py") "code"]
    let m := "Title\n=====\n\n* one *two* [l](u)\n* three\n  lazy\n\n" ++
      "2) three\nlazy\n3) three\n   lazy\n> a \x60b\x60\nlazy\n> > deep ***c***\n\n~~~py\ncode\n~~~"
    ∃ r, roundTrip .default m = .ok r ∧ r.markdown = markdown blocks ∧ Legible blocks ∧
      roundTrip .default r.markdown = .ok r ∧ r.markdown ≠ m := by
  intro plain title three one lazy deep blocks m
  have hmarkdown : (roundTrip .default m).toOption.map Rendering.markdown =
      some (markdown blocks) := by
    decide +kernel
  have hlegible : Legible blocks := by decide +kernel
  have hne : markdown blocks ≠ m := by decide +kernel
  obtain ⟨r, hr, hblocks⟩ := exists_of_toOption hmarkdown
  exact ⟨r, hr, hblocks, hlegible, roundTrip_stable hr hblocks hlegible, hblocks ▸ hne⟩

/-- A backslash takes another one for its escape, and the two come back as one. So half of the
backslashes of a text are lost each time. -/
theorem roundTrip_backslashes :
    ∃ r r', roundTrip .default "\\\\\\\\" = .ok r ∧ roundTrip .default r.markdown = .ok r' ∧
      r'.markdown ≠ r.markdown := by
  have hfirst : (roundTrip .default "\\\\\\\\").toOption.map Rendering.markdown = some "\\\\" := by
    decide +kernel
  have hsecond : (roundTrip .default "\\\\").toOption.map Rendering.markdown = some "\\" := by
    decide +kernel
  obtain ⟨r, hr, hmarkdown⟩ := exists_of_toOption hfirst
  rw [← hmarkdown] at hsecond
  obtain ⟨r', hr', hmarkdown'⟩ := exists_of_toOption hsecond
  refine ⟨r, r', hr, hr', ?_⟩
  rw [hmarkdown, hmarkdown']
  decide

end AdfMarkdown.Prose
