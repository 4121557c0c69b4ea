import AdfMarkdown.Markdown.Reader
import AdfMarkdown.Proofs.Prose.Opening
import AdfMarkdown.Proofs.Prose.Printing

/-! # Blocks read back

The blocks that the lines of prose are read as. A list also takes the blank line after it, and it
comes before the block that ends it, though that one is read first.
-/

namespace AdfMarkdown.Prose

open Markdown

def Phrase.readItem (p : Phrase) : List Markdown.Block := [.paragraph (chars p.runs ++ ['\n'])]

namespace Block

def listSign? : Block → Option ListSign
  | bullet .. => some (.bullet '-')
  | ordered .. => some (.number '.')
  | _ => none

def isList (b : Block) : Bool := b.listSign?.isSome

mutual

/-- What the lines of a block are read as. -/
def read : Block → Markdown.Block
  | paragraph p => .paragraph (chars p.runs ++ ['\n'])
  | heading level _ _ p => .heading level (chars p.runs)
  | bullet items _ => .list (.bullet '-') 1 (items.map Phrase.readItem)
  | ordered start items _ _ => .list (.number '.') start (items.map Phrase.readItem)
  | quote first rest => .quote (first.read :: readAfter first.isList rest)
  | code language text => .fencedCode (language.getD "").toList (text.toList ++ ['\n'])

/-- What the lines of blocks are read as after another block, with the blank lines unless a list
has taken them. -/
def readAfter : (isTaken : Bool) → List Block → List Markdown.Block
  | _, [] => []
  | isTaken, b :: bs =>
    (if isTaken then [] else [.blankLine]) ++ b.read :: readAfter b.isList bs

end

def linesAfter : (isTaken : Bool) → List Block → List String
  | _, [] => []
  | isTaken, b :: bs => (if isTaken then [] else [""]) ++ (b.lines ++ linesAfter false bs)

theorem intercalate_lines : ∀ bs : List Block,
    [""].intercalate (bs.map lines) = linesAfter true bs
  | [] => rfl
  | [b] => by simp [linesAfter]
  | b :: b' :: bs => by
    rw [List.map_cons, List.map_cons, List.intercalate_cons_cons, ← List.map_cons,
      intercalate_lines (b' :: bs)]
    simp [linesAfter]

end Block

def Lines (cs : List Cursor) (ls : List String) : Prop :=
  List.Forall₂ (fun c l => At c l.toList) cs ls

/-- The lines are over, or there is an empty line. -/
def Ends (rest : List Cursor) : Prop := ∀ c ∈ rest.head?, At c []

variable {c : Cursor} {d : Char} {s : List Char} {cs rest : List Cursor} {ls : List String}
variable {depth fuel : Nat} {tables : Bool} {acc : List Markdown.Block}

theorem At.isBlankLine_eq_true (h : At c []) : c.isBlankLine = true := by
  rw [Cursor.isBlankLine, h.rest]
  rfl

theorem At.isBlankLine (h : At c (d :: s)) (hd : Text.isSpace d = false) :
    c.isBlankLine = false := by
  have hfiller : Cursor.isFiller d = false := by
    rw [Bool.eq_false_iff]
    intro hfiller
    simp only [Cursor.isFiller, Bool.or_eq_true, beq_iff_eq] at hfiller
    rcases hfiller with ((rfl | rfl) | rfl) | rfl <;> exact absurd hd (by decide)
  rw [Cursor.isBlankLine, h.rest, List.all_cons, hfiller, Bool.false_and]

structure Unindented (c : Cursor) : Prop where
  filled : c.isBlankLine = false
  indent : c.indent = 0

theorem At.unindented (h : At c (d :: s)) (hd : Text.isSpace d = false) : Unindented c :=
  ⟨h.isBlankLine hd, h.indent (isBlank_of_not_isSpace hd)⟩

theorem At.text (h : At c s) : c.text = s := by
  rw [Cursor.text, h.pending, h.rest]
  rfl

theorem quote?_empty (h : At c []) : BlockStart.quote? c = none := by
  have hskip : c.skipBlanks.rest = [] := by
    simp [Cursor.skipBlanks, Cursor.advance, Cursor.indent, h.rest, h.pending, Cursor.blankWidth]
  rw [BlockStart.quote?, hskip]
  exact ite_self none

theorem exists_cons_of_opensText {l : List Char} (h : opensText l = true) :
    ∃ d s, l = d :: s ∧ Text.isSpace d = false := by
  cases l with
  | nil => cases h
  | cons d s => exact ⟨d, s, rfl, (opensText_cases h).1⟩

theorem At.starts_nothing (h : At c s) (hs : opensText s = true) :
    Unindented c ∧ ∀ depth position, BlockStart.read? depth position c = none := by
  obtain ⟨d, t, rfl, hspace⟩ := exists_cons_of_opensText hs
  exact ⟨h.unindented hspace, fun _ _ => read?_eq_none hs h⟩

/-! ## Paragraphs -/

theorem ne_of_opensText (hopens : opensText (d :: s) = true) : d ≠ '|' ∧ d ≠ '-' ∧ d ≠ ':' := by
  obtain ⟨-, ⟨h, -⟩ | ⟨h, -⟩ | ⟨h, -⟩⟩ := opensText_cases hopens
  · rcases h with rfl | rfl | rfl | rfl <;> decide
  · rcases h with rfl | rfl <;> decide
  · exact ⟨h '|' (by decide), h '-' (by decide), h ':' (by decide)⟩

theorem unindented_eq (hd : Text.isSpace d = false) : Table.unindented (d :: s) = d :: s := by
  have hne : d ≠ ' ' := by
    rintro rfl
    exact absurd hd (by decide)
  simp [Table.unindented, hne]

/-- There is no row of delimiters after a line of a paragraph. -/
theorem table?_eq_none (hopens : opensText (d :: s) = true) (h : At c (d :: s))
    (hrest : ∀ c' ∈ rest.head?, ∃ l, At c' l ∧ (l = [] ∨ opensText l = true)) :
    Progress.table? (c :: rest) = none := by
  have hfirst : Table.pipedRow? (d :: s) = none := by
    rw [Table.pipedRow?, unindented_eq (opensText_cases hopens).1]
    split
    · next heq _ => exact absurd (List.cons.inj heq).1 (ne_of_opensText hopens).1
    · rfl
  simp only [Progress.table?]
  rw [List.map_cons, h.text]
  cases rest with
  | nil => exact ite_self none
  | cons c' rest =>
    obtain ⟨l, hl, hcases⟩ := hrest c' rfl
    have hdelimiters : Table.openDelimiters? l = none := by
      rcases hcases with rfl | hnext
      · rfl
      · obtain ⟨e, t, rfl, he⟩ := exists_cons_of_opensText hnext
        simp [Table.openDelimiters?, unindented_eq he, ne_of_opensText hnext]
    rw [List.map_cons, hl.text, Table.read?, hfirst, hdelimiters]
    cases Table.openHeader? (d :: s) <;> exact ite_self none

theorem labelBody?_eq {s label rest : List Char} (h : Link.labelBody? s = some (label, rest)) :
    ∃ t, s = t ++ ']' :: rest := by
  fun_induction Link.labelBody? s generalizing label with
  | case1 => cases h
  | case2 s =>
    cases h
    exact ⟨[], rfl⟩
  | case3 => cases h
  | case4 d t _ _ ih =>
    obtain ⟨⟨label', rest'⟩, hbody, heq⟩ := Option.map_eq_some_iff.mp h
    cases heq
    obtain ⟨u, rfl⟩ := ih hbody
    exact ⟨_ :: d :: u, rfl⟩
  | case5 => cases h
  | case6 c s _ _ _ ih =>
    obtain ⟨⟨label', rest'⟩, hbody, heq⟩ := Option.map_eq_some_iff.mp h
    cases heq
    obtain ⟨u, rfl⟩ := ih hbody
    exact ⟨c :: u, rfl⟩

theorem definition_read?_eq_none {s : List Char} (h : ¬ [']', ':'] <:+: s) :
    Definition.read? s = none := by
  have hlabel : ∀ body label after, s.dropWhile Text.isBlank = '[' :: body →
      Link.label? body = some (label, ':' :: after) → False := by
    intro body label after hs hlabel
    have hbody : Link.labelBody? body = some (label, ':' :: after) := by
      unfold Link.label? at hlabel
      split at hlabel
      · next heq =>
        split_ifs at hlabel
        rw [heq, hlabel]
      · cases hlabel
    obtain ⟨t, rfl⟩ := labelBody?_eq hbody
    have hinside : [']', ':'] <:+: s.dropWhile Text.isBlank :=
      ⟨'[' :: t, after, by rw [hs]; simp⟩
    exact h (hinside.trans (List.dropWhile_suffix _).isInfix)
  unfold Definition.read?
  cases hs : s.dropWhile Text.isBlank with
  | nil => rfl
  | cons c body =>
    by_cases hc : c = '['
    · subst hc
      cases hl : Link.label? body with
      | none => simp [hl]
      | some r =>
        obtain ⟨label, after⟩ := r
        cases after with
        | nil => simp [hl]
        | cons e after =>
          by_cases he : e = ':'
          · subst he
            exact (hlabel body label after hs hl).elim
          · simp [hl, he]
    · simp [hc]

theorem underlined?_eq_none (h : Markdown.Block.endsInParagraph acc = false) :
    Progress.underlined? c acc = none := by
  cases acc with
  | nil => rfl
  | cons b acc =>
    cases b with
    | paragraph text => cases h
    | _ => rfl

theorem readAll_nil : Progress.readAll tables fuel depth acc [] = acc := by
  cases fuel <;> rfl

theorem readAll_blank (h : At c []) :
    Progress.readAll tables (fuel + 1) depth acc (c :: rest) =
      Progress.readAll tables fuel depth (.blankLine :: acc) rest := by
  rw [Progress.readAll]
  simp [h.isBlankLine_eq_true]

theorem readAll_start {start : BlockStart} (hblank : c.isBlankLine = false)
    (hacc : Markdown.Block.endsInParagraph acc = false)
    (hread : BlockStart.read? depth .fresh c = some start) :
    Progress.readAll tables (fuel + 1) depth acc (c :: rest) =
      Progress.readAll tables fuel depth (Progress.readBlock fuel depth acc c rest start).blocks
        (Progress.readBlock fuel depth acc c rest start).left := by
  rw [Progress.readAll]
  simp [hblank, underlined?_eq_none hacc, hacc, hread]

theorem readAll_text (hopens : opensText s = true) (h : At c s)
    (hrest : ∀ c' ∈ rest.head?, ∃ l, At c' l ∧ (l = [] ∨ opensText l = true))
    (hdefinition : Markdown.Block.endsInParagraph acc = false → s.head? = some '[' →
      Progress.definition? (c :: rest) = none) :
    Progress.readAll tables (fuel + 1) depth acc (c :: rest) =
      Progress.readAll tables fuel depth (Markdown.Block.addLine c acc) rest := by
  obtain ⟨d, s, rfl, hspace⟩ := exists_cons_of_opensText hopens
  have hunder : Progress.underlined? c acc = none := by
    unfold Progress.underlined?
    split
    · rw [underline?_eq_none hopens h]
      rfl
    · rfl
  have htext : Progress.readText (tables && depth == 0) acc c rest =
      ⟨Markdown.Block.addLine c acc, rest⟩ := by
    have hnone : (if (!Markdown.Block.endsInParagraph acc && c.body.head? == some '[') = true then
        Progress.definition? (c :: rest) else none) = none := by
      rw [h.body (isBlank_of_not_isSpace hspace)]
      split_ifs with hcond
      · simp only [Bool.and_eq_true, Bool.not_eq_true', beq_iff_eq] at hcond
        exact hdefinition hcond.1 hcond.2
      · rfl
    unfold Progress.readText
    simp only [hnone, table?_eq_none hopens h hrest, ite_self]
  rw [Progress.readAll]
  simp [h.isBlankLine hspace, hunder, read?_eq_none hopens h, htext]

theorem Lines.of_append (ls : List String) {ls' : List String} (h : Lines cs (ls ++ ls')) :
    ∃ cs₁ cs₂, cs = cs₁ ++ cs₂ ∧ Lines cs₁ ls ∧ Lines cs₂ ls' := by
  induction ls generalizing cs with
  | nil => exact ⟨[], cs, rfl, .nil, h⟩
  | cons l ls ih =>
    cases h with
    | @cons c _ cs _ hc hcs =>
      obtain ⟨cs₁, cs₂, rfl, h₁, h₂⟩ := ih hcs
      exact ⟨c :: cs₁, cs₂, rfl, .cons hc h₁, h₂⟩

theorem Lines.exists_of_mem (h : Lines cs ls) (hc : c ∈ cs) : ∃ l ∈ ls, At c l.toList := by
  induction h with
  | nil => cases hc
  | cons hat _ ih =>
    rcases List.mem_cons.mp hc with rfl | hc
    · exact ⟨_, List.mem_cons_self, hat⟩
    · obtain ⟨l, hl, hat⟩ := ih hc
      exact ⟨l, List.mem_cons_of_mem _ hl, hat⟩

theorem Lines.text (h : Lines cs ls) :
    (cs.flatMap fun c => c.text ++ ['\n']) = ls.flatMap fun l => l.toList ++ ['\n'] := by
  induction h with
  | nil => rfl
  | cons hc _ ih => rw [List.flatMap_cons, List.flatMap_cons, hc.text, ih]

theorem next_of_lines (h : Lines cs ls) (hopens : ∀ l ∈ ls, opensText l.toList = true)
    (hrest : Ends rest) :
    ∀ c' ∈ (cs ++ rest).head?, ∃ l, At c' l ∧ (l = [] ∨ opensText l = true) := by
  intro c' hc'
  cases h with
  | nil => exact ⟨[], hrest c' hc', .inl rfl⟩
  | @cons c l cs ls hc _ =>
    obtain rfl : c = c' := by simpa using hc'
    exact ⟨l.toList, hc, .inr (hopens l List.mem_cons_self)⟩

theorem readAll_continue (h : Lines cs ls) (hopens : ∀ l ∈ ls, opensText l.toList = true)
    (hrest : Ends rest) (text : List Char) :
    Progress.readAll tables (fuel + ls.length) depth (.paragraph text :: acc) (cs ++ rest) =
      Progress.readAll tables fuel depth
        (.paragraph (text ++ ls.flatMap fun l => l.toList ++ ['\n']) :: acc) rest := by
  induction h generalizing text with
  | nil => simp
  | @cons c l cs ls hc hcs ih =>
    have hl := hopens l List.mem_cons_self
    have hls : ∀ l ∈ ls, opensText l.toList = true := fun l h => hopens l (List.mem_cons_of_mem _ h)
    rw [List.length_cons, ← Nat.add_assoc, List.cons_append,
      readAll_text hl hc (next_of_lines hcs hls hrest) (fun hfresh => by cases hfresh),
      Markdown.Block.addLine, hc.text, ih hls]
    simp

theorem Lines.takeWhile_isBlankLine (h : Lines cs ls)
    (hopens : ∀ l ∈ ls, opensText l.toList = true) (hrest : Ends rest) :
    (cs ++ rest).takeWhile (!·.isBlankLine) = cs := by
  have hfilled : ∀ c ∈ cs, (!c.isBlankLine) = true := by
    induction h with
    | nil => simp
    | @cons c l cs ls hc _ ih =>
      rw [List.forall_mem_cons] at hopens ⊢
      exact ⟨by rw [(hc.starts_nothing hopens.1).1.filled]; rfl, ih hopens.2⟩
  rw [List.takeWhile_append_of_pos hfilled]
  cases rest with
  | nil => exact List.append_nil cs
  | cons c rest =>
    have hblank := (hrest c rfl).isBlankLine_eq_true
    rw [List.takeWhile_cons_of_neg (by simp [hblank]), List.append_nil]

theorem Phrase.toList_markdown (p : Phrase) : p.markdown.toList = chars p.runs := by
  have hjoin : ∀ rs : List Run, (Text.join "" (rs.map Run.markdown)).toList = chars rs := by
    intro rs
    induction rs with
    | nil => rfl
    | cons r rs ih =>
      cases rs with
      | nil => simp [chars]
      | cons r' rs =>
        rw [List.map_cons] at ih
        rw [List.map_cons, List.map_cons, Text.join_cons_cons, String.append_empty,
          String.toList_append, ih]
        rfl
  exact hjoin p.runs

theorem Phrase.Flows.opensText {p : Phrase} (hp : p.Flows) :
    ∀ l ∈ Text.lines p.markdown, opensText l.toList = true := by
  intro l hl
  obtain ⟨piece, hpiece, rfl⟩ := List.mem_map.mp hl
  rw [String.toList_ofList]
  exact hp.opens piece (p.toList_markdown ▸ hpiece)

theorem Phrase.flatMap_lines (p : Phrase) :
    ((Text.lines p.markdown).flatMap fun l => l.toList ++ ['\n']) = chars p.runs ++ ['\n'] := by
  rw [Text.flatMap_lines, p.toList_markdown]

theorem Phrase.Flows.definition?_eq_none {p : Phrase} (hp : p.Flows)
    (h : Lines (c :: cs) (Text.lines p.markdown)) (hrest : Ends rest) (hc : At c s)
    (hfirst : s.head? = some '[') : Progress.definition? (c :: (cs ++ rest)) = none := by
  have htext : ((c :: cs).flatMap fun c => c.text ++ ['\n']) = chars p.runs ++ ['\n'] :=
    h.text.trans p.flatMap_lines
  have hbracket : (chars p.runs).head? = some '[' := by
    cases s with
    | nil => cases hfirst
    | cons d s =>
      obtain rfl := Option.some.inj hfirst
      rw [List.flatMap_cons, hc.text] at htext
      cases hchars : chars p.runs with
      | nil =>
        rw [hchars] at htext
        cases htext
      | cons e t =>
        rw [hchars] at htext
        rw [List.head?_cons, ← (List.cons.inj htext).1]
  have hno : ¬ [']', ':'] <:+: chars p.runs ++ ['\n'] := by
    rw [List.infix_concat_iff, List.suffix_concat_iff]
    rintro ((hnil | ⟨t, ht, -⟩) | hinside)
    · cases hnil
    · have hlast := congrArg List.getLast? ht
      simp at hlast
    · exact hp.no_definition hbracket hinside
  have htake := h.takeWhile_isBlankLine hp.opensText hrest
  rw [List.cons_append] at htake
  unfold Progress.definition?
  simp [htake, Taken.text, htext, definition_read?_eq_none hno]

/-- The lines of a paragraph are read as one. -/
theorem readAll_paragraph {p : Phrase} (hp : p.Flows) (h : Lines cs (Text.lines p.markdown))
    (hrest : Ends rest) (hacc : Markdown.Block.endsInParagraph acc = false) :
    Progress.readAll tables (fuel + cs.length) depth acc (cs ++ rest) =
      Progress.readAll tables fuel depth (.paragraph (chars p.runs ++ ['\n']) :: acc) rest := by
  obtain ⟨l, ls, hls⟩ := List.exists_cons_of_ne_nil (Text.lines_ne_nil p.markdown)
  have hopens := hp.opensText
  have hall := p.flatMap_lines
  have hlines := h
  rw [hls] at h hopens hall
  cases h with
  | @cons c _ cs _ hc hcs =>
    obtain ⟨hl, hrests⟩ := List.forall_mem_cons.mp hopens
    have hadd : Markdown.Block.addLine c acc = .paragraph (c.text ++ ['\n']) :: acc := by
      unfold Markdown.Block.addLine
      split
      · cases hacc
      · rfl
    rw [List.length_cons, ← Nat.add_assoc, List.cons_append,
      readAll_text hl hc (next_of_lines hcs hrests hrest) fun _ =>
        hp.definition?_eq_none hlines hrest hc,
      hadd, hcs.length_eq, readAll_continue hcs hrests hrest, hc.text, ← hall, List.flatMap_cons]

/-! ## Code -/

theorem At.body_eq (h : At c s) : c.body = s.dropWhile Text.isBlank := by
  rw [Cursor.body, h.rest]

theorem closesFence_eq_false {info : List Char} (h : At c s) (hs : isFence s = false) :
    BlockStart.closesFence ⟨'\x60', 3, 0, info⟩ c = false := by
  have hshort : ¬ 3 ≤ ((s.dropWhile Text.isBlank).takeWhile (· == '\x60')).length := by
    intro hlength
    have hticks : List.replicate 3 '\x60' <+: s.dropWhile Text.isBlank := by
      have hsigns : (s.dropWhile Text.isBlank).takeWhile (· == '\x60') = List.replicate
          ((s.dropWhile Text.isBlank).takeWhile (· == '\x60')).length '\x60' :=
        List.eq_replicate_iff.mpr ⟨rfl, fun e he => by simpa using List.mem_takeWhile_imp he⟩
      have hprefix := List.takeWhile_prefix (l := s.dropWhile Text.isBlank) (· == '\x60')
      rw [hsigns, ← Nat.add_sub_cancel' hlength, List.replicate_add] at hprefix
      exact (List.prefix_append _ _).trans hprefix
    have hfence : isFence s = true := List.isPrefixOf_iff_prefix.mpr hticks
    rw [hs] at hfence
    cases hfence
  simp only [BlockStart.closesFence, h.body_eq]
  rw [decide_eq_false hshort, Bool.and_false, Bool.false_and]

theorem take_of_forall {f : Fence} (hcs : ∀ d ∈ cs, BlockStart.closesFence f d = false)
    (hc : BlockStart.closesFence f c = true) :
    f.take (cs ++ c :: rest) = ⟨cs.map (·.advance f.indent), rest⟩ := by
  induction cs with
  | nil =>
    rw [List.nil_append, Fence.take, if_pos hc]
    rfl
  | cons d cs ih =>
    rw [List.forall_mem_cons] at hcs
    rw [List.cons_append, Fence.take, hcs.1, ih hcs.2]
    rfl

theorem take_fence {info : List Char} (h : Lines cs ls)
    (hls : ∀ l ∈ ls, isFence l.toList = false) (hc : At c "```".toList) :
    Fence.take ⟨'\x60', 3, 0, info⟩ (cs ++ c :: rest) = ⟨cs, rest⟩ := by
  have hopen : ∀ d ∈ cs, BlockStart.closesFence ⟨'\x60', 3, 0, info⟩ d = false := by
    intro d hd
    obtain ⟨l, hl, hat⟩ := h.exists_of_mem hd
    exact closesFence_eq_false hat (hls l hl)
  have hcloses : BlockStart.closesFence ⟨'\x60', 3, 0, info⟩ c = true := by
    have hbody : c.body = "```".toList := hc.body (by decide)
    have hindent : c.indent = 0 := hc.indent (by decide)
    simp only [BlockStart.closesFence, hbody, hindent]
    decide
  have hadvance : cs.map (·.advance 0) = cs :=
    List.map_id'' (fun d => by rw [Cursor.advance, if_pos (Nat.zero_le _)]; rfl) cs
  rw [take_of_forall hopen hcloses, hadvance]

end AdfMarkdown.Prose
