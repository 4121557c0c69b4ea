import AdfMarkdown.Config
import AdfMarkdown.Proofs.ItemLines
import AdfMarkdown.Proofs.Prose.RoundTrip
import AdfMarkdown.Proofs.ReadingOn

/-! # Code and its fence

A block of code renders as its lines between two fences of three backticks. Whatever the code is,
the fence is the same, so the code is read back as one block exactly if none of its lines closes
that fence.
-/

namespace AdfMarkdown

namespace Markdown

/-! ## Lines that close a fence -/

namespace Fence

/-- The line closes code after the fence: three blanks at most, the sign as often as in the fence or
more often, and nothing but blanks after it. -/
def ClosedBy (f : Fence) (line : List Char) : Prop :=
  ∃ n k blanks, n ≤ 3 ∧ f.length ≤ k ∧ (∀ c ∈ blanks, Text.isBlank c = true) ∧
    line = List.replicate n ' ' ++ (List.replicate k f.sign ++ blanks)

end Fence

theorem Cursor.eq_replicate_of_blankWidth {column : Nat} {s : List Char}
    (h : column + blankWidth column s ≤ 3) :
    s = List.replicate (blankWidth column s) ' ' ++ s.dropWhile Text.isBlank := by
  induction s generalizing column with
  | nil => rfl
  | cons c s ih =>
    rw [blankWidth] at h ⊢
    split_ifs at h ⊢ with hspace htab
    · subst hspace
      rw [Nat.add_comm 1, List.replicate_succ, List.cons_append,
        List.dropWhile_cons_of_pos (by decide), ← ih (by omega)]
    · have htab : tabWidth column = 4 - column % 4 := rfl
      omega
    · rw [List.dropWhile_cons_of_neg (by simp [Text.isBlank, hspace, htab])]
      rfl

theorem Cursor.blankWidth_replicate {c : Char} (hc : Text.isBlank c = false) (s : List Char)
    (n column : Nat) : blankWidth column (List.replicate n ' ' ++ c :: s) = n := by
  simp only [Text.isBlank, Bool.or_eq_false_iff, beq_eq_false_iff_ne] at hc
  induction n generalizing column with
  | zero => simp [blankWidth, hc.1, hc.2]
  | succ n ih =>
    rw [List.replicate_succ, List.cons_append, blankWidth, if_pos rfl, ih, Nat.add_comm]

theorem BlockStart.closesFence_ofLine_iff {f : Fence} (hsign : Text.isBlank f.sign = false)
    (hlength : 0 < f.length) {line : List Char} :
    closesFence f (.ofLine line) = true ↔ f.ClosedBy line := by
  have hindent : (Cursor.ofLine line).indent = Cursor.blankWidth 0 line := Nat.zero_add _
  have hbody : (Cursor.ofLine line).body = line.dropWhile Text.isBlank := rfl
  rw [closesFence]
  simp only [hindent, hbody, Bool.and_eq_true, decide_eq_true_iff]
  constructor
  · rintro ⟨⟨hwidth, hmany⟩, hblanks⟩
    have hline := Cursor.eq_replicate_of_blankWidth ((Nat.zero_add _).trans_le hwidth)
    have hsigns : (line.dropWhile Text.isBlank).takeWhile (· == f.sign) = List.replicate
        ((line.dropWhile Text.isBlank).takeWhile (· == f.sign)).length f.sign :=
      List.eq_replicate_iff.mpr ⟨rfl, fun c hc => by simpa using List.mem_takeWhile_imp hc⟩
    refine ⟨_, _, _, hwidth, hmany, List.all_eq_true.mp hblanks, ?_⟩
    rw [← hsigns, Text.drop_length_takeWhile, List.takeWhile_append_dropWhile, ← hline]
  · rintro ⟨n, k, blanks, hn, hk, hblanks, rfl⟩
    obtain ⟨m, rfl⟩ : ∃ m, k = m + 1 := ⟨k - 1, by omega⟩
    have hbody : (List.replicate n ' ' ++ (List.replicate (m + 1) f.sign ++ blanks)).dropWhile
        Text.isBlank = List.replicate (m + 1) f.sign ++ blanks := by
      rw [List.dropWhile_append_of_pos (by simp [Text.isBlank]), List.replicate_succ,
        List.cons_append, List.dropWhile_cons_of_neg (by simp [hsign])]
    have hsigns : (List.replicate (m + 1) f.sign ++ blanks).takeWhile (· == f.sign) =
        List.replicate (m + 1) f.sign := by
      rw [List.takeWhile_append_of_pos (by simp)]
      cases blanks with
      | nil => simp
      | cons c blanks =>
        have hne : c ≠ f.sign := by
          rintro rfl
          rw [hblanks _ List.mem_cons_self] at hsign
          cases hsign
        rw [List.takeWhile_cons_of_neg (by simpa using hne), List.append_nil]
    rw [hbody, hsigns, List.length_replicate, List.drop_left' List.length_replicate,
      List.replicate_succ, List.cons_append, Cursor.blankWidth_replicate hsign]
    exact ⟨⟨hn, hk⟩, List.all_eq_true.mpr hblanks⟩

/-! ## Code read back -/

def linesText (lines : List (List Char)) : List Char := lines.flatMap (· ++ ['\n'])

theorem text_ofLine (lines : List (List Char)) (left : List Cursor) :
    Taken.text ⟨(lines.map Cursor.ofLine).map (·.advance 0), left⟩ = linesText lines := by
  rw [Taken.text, linesText, List.flatMap_map, List.flatMap_map]
  rfl

def openingFence (language : List Char) : Fence := ⟨'\x60', 3, 0, Url.unescape language⟩

section Read

variable {language : List Char}

/-- Code in the language as it is printed. -/
def fenced (language code : List Char) : List Char :=
  "```".toList ++ language ++ '\n' :: (code ++ '\n' :: "```".toList)

theorem textLines_fenced (hlanguage : ∀ d ∈ language, Text.isSpace d = false) (code : List Char) :
    textLines (fenced language code) =
      ("```".toList ++ language) :: (textLines (code ++ ['\n']) ++ ["```".toList]) := by
  have hspace : ∀ d, Text.isSpace d = true → d ∉ "```".toList → d ∉ "```".toList ++ language := by
    intro d hd hticks hmem
    rw [hlanguage d ((List.mem_append.mp hmem).resolve_left hticks)] at hd
    cases hd
  rw [fenced, textLines_append_cons, textLines_append_cons code,
    textLines_of_not_mem (hspace '\r' (by decide) (by decide)),
    Text.splitAt_eq_of_not_mem (hspace '\n' (by decide) (by decide))]
  rfl

theorem readAll_openingFence (hlanguage : ∀ d ∈ language, Text.isSpace d = false ∧ d ≠ '\x60')
    (tables : Bool) (fuel : Nat) {rest : List Cursor} {t : Taken}
    (ht : (openingFence language).take rest = t) :
    Progress.readAll tables (fuel + 2) 0 [] (.ofLine ("```".toList ++ language) :: rest) =
      Progress.readAll tables (fuel + 1) 0 [.fencedCode (Url.unescape language) t.text] t.left := by
  have hat : Prose.At (.ofLine ("```".toList ++ language)) ("```".toList ++ language) := ⟨rfl, rfl⟩
  have hread : BlockStart.read? 0 .fresh (.ofLine ("```".toList ++ language)) =
      some (.fence (openingFence language)) := Prose.read?_openingFence hlanguage hat
  have hblank : (Cursor.ofLine ("```".toList ++ language)).isBlankLine = false :=
    Prose.At.isBlankLine (d := '\x60') hat (by decide)
  rw [Prose.readAll_start hblank rfl hread, ← ht]
  rfl

/-- The lines before the first one that closes the fence are read as the code, and those after it
are read on from there. -/
theorem exists_readBlocks_fenced (hlanguage : ∀ d ∈ language, Text.isSpace d = false ∧ d ≠ '\x60')
    (ext : Extensions) {code l : List Char} {before after : List (List Char)}
    (hlines : textLines (code ++ ['\n']) ++ ["```".toList] = before ++ l :: after)
    (hbefore : ∀ m ∈ before, BlockStart.closesFence (openingFence language) (.ofLine m) = false)
    (hl : BlockStart.closesFence (openingFence language) (.ofLine l) = true) :
    ∃ fuel, readBlocks ext (fenced language code) =
      (Progress.readAll ext.table fuel 0 [.fencedCode (Url.unescape language) (linesText before)]
        (after.map Cursor.ofLine)).reverse := by
  have htake : (openingFence language).take ((before ++ l :: after).map Cursor.ofLine) =
      ⟨(before.map Cursor.ofLine).map (·.advance 0), after.map Cursor.ofLine⟩ := by
    rw [List.map_append, List.map_cons]
    exact Prose.take_of_forall (List.forall_mem_map.mpr hbefore) hl
  obtain ⟨fuel, hfuel⟩ := exists_readBlocks_eq ext (fenced language code)
  refine ⟨fuel + 1, ?_⟩
  rw [hfuel, textLines_fenced fun d hd => (hlanguage d hd).1, hlines, List.map_cons,
    readAll_openingFence hlanguage _ _ htake, text_ofLine]

theorem readBlocks_fenced_iff (hlanguage : ∀ d ∈ language, Text.isSpace d = false ∧ d ≠ '\x60')
    (ext : Extensions) (code : List Char) :
    readBlocks ext (fenced language code) =
        [.fencedCode (Url.unescape language) (linesText (textLines (code ++ ['\n'])))] ↔
      ∀ l ∈ textLines (code ++ ['\n']), ¬ (openingFence language).ClosedBy l := by
  have hcloses (l : List Char) : BlockStart.closesFence (openingFence language) (.ofLine l) = true ↔
      (openingFence language).ClosedBy l :=
    BlockStart.closesFence_ofLine_iff rfl (Nat.succ_pos 2)
  cases hfind : (textLines (code ++ ['\n'])).find? fun l =>
    BlockStart.closesFence (openingFence language) (.ofLine l) with
  | none =>
    have hopen := List.find?_eq_none.mp hfind
    have hclosing : (openingFence language).ClosedBy "```".toList :=
      ⟨0, 3, [], by decide, le_refl 3, by simp, rfl⟩
    obtain ⟨fuel, hfuel⟩ := exists_readBlocks_fenced hlanguage ext rfl
      (fun l hl => Bool.eq_false_iff.mpr (hopen l hl)) ((hcloses _).mpr hclosing)
    refine iff_of_true ?_ fun l hl => mt (hcloses l).mpr (hopen l hl)
    rw [hfuel, List.map_nil, Prose.readAll_nil]
    rfl
  | some l =>
    obtain ⟨hl, before, after, hlines, hbefore⟩ := List.find?_eq_some_iff_append.mp hfind
    have hsplit : textLines (code ++ ['\n']) ++ ["```".toList] =
        before ++ l :: (after ++ ["```".toList]) := by
      rw [hlines, List.append_assoc, List.cons_append]
    obtain ⟨fuel, hfuel⟩ :=
      exists_readBlocks_fenced hlanguage ext hsplit (by simpa using hbefore) hl
    -- The code up to the line stays a block of its own, whatever the lines after it are read as.
    have hstays : Block.fencedCode (Url.unescape language) (linesText before) ∈
        readBlocks ext (fenced language code) := by
      rw [hfuel, List.mem_reverse]
      exact Progress.mem_readAll (fun _ => nofun) List.mem_cons_self
    rw [hlines]
    refine iff_of_false (fun hread => ?_) fun hnone => hnone l (by simp) ((hcloses l).mp hl)
    have htext : linesText before = linesText (before ++ l :: after) := by
      simpa [hread] using hstays
    have hlength := congrArg List.length htext
    simp [linesText] at hlength

end Read

end Markdown

namespace Token

open Markdown

variable {t : Token} {language : Option String}

theorem renderBlock_codeBlock (hattr : t.attr? "language" = language.map .text) :
    Node.renderBlock t.codeBlock =
      .ok (Text.join "\n" ["```" ++ language.getD "", t.raw, "```"]) := by
  have hlanguage : languageOf t.codeAttrs = language.getD "" := by
    rw [Prose.Block.codeAttrs_eq hattr, Prose.languageOf_language]
  have htext : Node.plainText (if t.raw = "" then [] else [.run t.raw []]) = t.raw :=
    Prose.plainText_text t.raw
  rw [codeBlock, Node.branch, Node.renderBlock, hlanguage, htext, Text.join_cons_cons,
    Text.join_cons_cons, Text.join_singleton]
  simp only [String.append_assoc]
  rfl

theorem toList_join_fences (language code : String) :
    (Text.join "\n" ["```" ++ language, code, "```"]).toList =
      fenced language.toList code.toList := by
  rw [Text.join_cons_cons, Text.join_cons_cons, Text.join_singleton, fenced]
  simp only [String.toList_append, List.append_assoc]
  rfl

/-- The block of a token for code renders as the lines of its code between two fences of three
backticks. Reading gives it back as one block exactly if no line of the code closes such a fence. -/
theorem readBlocks_codeBlock_iff (hname : t.name = "block_code")
    (hattr : t.attr? "language" = language.map .text)
    (hlanguage : ∀ d ∈ (language.getD "").toList, Text.isSpace d = false ∧ d ≠ '\x60') :
    let fence := openingFence (language.getD "").toList
    let lines := textLines (t.raw.toList ++ ['\n'])
    ∃ s, block? t = some t.codeBlock ∧ Node.renderBlock t.codeBlock = .ok s ∧
      Text.lines s = ("```" ++ language.getD "") :: (Text.lines t.raw ++ ["```"]) ∧
      (∀ ext, readBlocks ext s.toList = [.fencedCode fence.info (linesText lines)] ↔
        ∀ l ∈ lines, ¬ fence.ClosedBy l) ∧
      ('\r' ∉ t.raw.toList → ∀ ext,
        (readBlocks ext s.toList = [.fencedCode fence.info (t.raw.toList ++ ['\n'])] ↔
          ∀ l ∈ Text.lines t.raw, ¬ fence.ClosedBy l.toList)) := by
  intro fence lines
  have hread (ext : Extensions) := readBlocks_fenced_iff hlanguage ext t.raw.toList
  rw [← toList_join_fences] at hread
  refine ⟨_, ?_, renderBlock_codeBlock hattr, ?_, hread, fun hreturn ext => ?_⟩
  · rw [block?_eq, hname]
    rfl
  · have hopening : '\n' ∉ ("```" ++ language.getD "").toList := by
      rw [String.toList_append, List.mem_append]
      rintro (hmem | hmem)
      · exact absurd hmem (by decide)
      · exact absurd (hlanguage _ hmem).1 (by decide)
    rw [Text.lines_join_eq_flatMap (by simp), List.flatMap_cons, List.flatMap_cons,
      List.flatMap_singleton, Text.lines_eq_singleton hopening,
      Text.lines_eq_singleton (s := "```") (by decide)]
    rfl
  · have hlines : lines = Text.splitAt '\n' t.raw.toList := textLines_of_not_mem hreturn
    have htext : linesText lines = t.raw.toList ++ ['\n'] := by
      rw [hlines]
      exact Text.flatMap_splitAt '\n' _
    rw [← htext]
    refine (hread ext).trans ?_
    rw [textLines_of_not_mem hreturn]
    simp [Text.lines, fence]

/-- Backticks that are too few, too far indented or before other signs, after a language. -/
theorem readBlocks_codeBlock_lean :
    let code := "``\n    ```\n```x"
    let t : Token := .mk "block_code" (some code) none (some [("language", .text "lean")]) none
    Node.renderBlock t.codeBlock = .ok "```lean\n``\n    ```\n```x\n```" ∧
      ∀ ext, readBlocks ext "```lean\n``\n    ```\n```x\n```".toList =
        [.fencedCode "lean".toList (code.toList ++ ['\n'])] := by
  intro code t
  have hattr : t.attr? "language" = (some "lean").map .text := rfl
  obtain ⟨s, -, hs, -, -, hread⟩ :=
    readBlocks_codeBlock_iff (t := t) rfl hattr (by simp [Text.isSpace])
  have hrendered : Node.renderBlock t.codeBlock = .ok "```lean\n``\n    ```\n```x\n```" := rfl
  obtain rfl : "```lean\n``\n    ```\n```x\n```" = s := Except.ok.inj (hrendered.symm.trans hs)
  have hinfo : (openingFence "lean".toList).info = "lean".toList :=
    LinkDestination.unescape_eq_self (by decide)
  refine ⟨hrendered, fun ext => ?_⟩
  rw [← hinfo]
  refine (hread (by decide) ext).mpr fun l hl hclosed => ?_
  have hopen : ∀ l ∈ Text.lines code, BlockStart.closesFence (openingFence "lean".toList)
      (.ofLine l.toList) = false := by decide
  have hcloses := (BlockStart.closesFence_ofLine_iff rfl (Nat.succ_pos 2)).mpr hclosed
  exact Bool.false_ne_true ((hopen l hl).symm.trans hcloses)

/-- A line of three backticks ends the code; the lines after it are read as a paragraph and as code
without an end. -/
theorem readBlocks_codeBlock_escaped :
    let t : Token := .mk "block_code" (some "a\n```\nb") none none none
    Node.renderBlock t.codeBlock = .ok "```\na\n```\nb\n```" ∧
      (openingFence []).ClosedBy "```".toList ∧ "```" ∈ Text.lines t.raw ∧
      readBlocks (.ofNames defaultPlugins) "```\na\n```\nb\n```".toList =
        [.fencedCode [] "a\n".toList, .paragraph "b\n".toList, .fencedCode [] []] := by
  refine ⟨rfl, ⟨0, 3, [], by decide, le_refl 3, by simp, rfl⟩, by decide, rfl⟩

end Token

end AdfMarkdown
