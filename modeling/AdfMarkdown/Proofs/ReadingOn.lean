import AdfMarkdown.Proofs.Prose.Structure

/-! # Reading on

The lines of a text come one after the other, those up to a line feed before those after it. A
block that has been read is still there when more lines are read, unless it is a paragraph, which
may go on.
-/

namespace AdfMarkdown

namespace Text

theorem splitAt_append_cons (sep : Char) (s t : List Char) :
    splitAt sep (s ++ sep :: t) = splitAt sep s ++ splitAt sep t := by
  induction s with
  | nil => simp [splitAt]
  | cons c s ih =>
    rw [List.cons_append, splitAt, splitAt, ih]
    by_cases hc : c = sep
    · simp [hc]
    · rw [if_neg hc, if_neg hc]
      cases hs : splitAt sep s with
      | nil => exact absurd hs (splitAt_ne_nil sep s)
      | cons piece pieces => rfl

end Text

namespace Markdown

/-! ## Lines -/

theorem exists_unify_append (s : List Char) :
    ∃ u, ∀ t, textLines.unify (s ++ '\n' :: t) = u ++ '\n' :: textLines.unify t := by
  fun_induction textLines.unify s with
  | case1 => exact ⟨[], fun _ => rfl⟩
  | case2 s ih =>
    obtain ⟨u, hu⟩ := ih
    exact ⟨'\n' :: u, fun t => congrArg _ (hu t)⟩
  | case3 s hs ih =>
    -- A carriage return at the end goes with the line feed after it.
    cases s with
    | nil => exact ⟨[], fun _ => rfl⟩
    | cons c s =>
      obtain ⟨u, hu⟩ := ih
      have hc : c ≠ '\n' := fun h => hs s (h ▸ rfl)
      refine ⟨'\n' :: u, fun t => ?_⟩
      rw [List.cons_append, List.cons_append, textLines.unify, ← List.cons_append, hu]
      · rfl
      · simpa using hc
  | case4 c s _ hreturn ih =>
    obtain ⟨u, hu⟩ := ih
    refine ⟨c :: u, fun t => ?_⟩
    rw [List.cons_append, textLines.unify, hu]
    · rfl
    · exact fun _ h _ => hreturn h
    · exact hreturn

theorem textLines_append_cons (s t : List Char) :
    textLines (s ++ '\n' :: t) = textLines (s ++ ['\n']) ++ textLines t := by
  obtain ⟨u, hu⟩ := exists_unify_append s
  have hne := Text.splitAt_ne_nil '\n' (textLines.unify t)
  have hend : textLines (s ++ ['\n']) = Text.splitAt '\n' u := by
    unfold textLines
    rw [hu, Text.splitAt_append_cons, textLines.unify, Text.splitAt]
    simp
  rw [hend]
  unfold textLines
  rw [hu, Text.splitAt_append_cons]
  dsimp only
  rw [List.getLast?_append_of_ne_nil _ hne, List.dropLast_append_of_ne_nil hne]
  split <;> rfl

theorem textLines_of_not_mem {s : List Char} (h : '\r' ∉ s) :
    textLines (s ++ ['\n']) = Text.splitAt '\n' s := by
  have hreturn : '\r' ∉ s ++ ['\n'] := by simpa using h
  unfold textLines
  rw [Prose.unify_eq_self hreturn, Text.splitAt_append_cons, Text.splitAt]
  simp

/-! ## Blocks stay -/

namespace Progress

variable {b : Block} {blocks : List Block} {tables : Bool}

theorem mem_addLine {c : Cursor} (hb : ∀ s, b ≠ .paragraph s) (h : b ∈ blocks) :
    b ∈ Block.addLine c blocks := by
  unfold Block.addLine
  split
  · exact List.mem_cons_of_mem _ ((List.mem_cons.mp h).resolve_left (hb _))
  · exact List.mem_cons_of_mem _ h

theorem mem_insertAfter {n : Nat} {x : Block} (h : b ∈ blocks) :
    b ∈ Block.insertAfter n x blocks := by
  rw [← List.take_append_drop (blocks.length - n) blocks, List.mem_append] at h
  rw [Block.insertAfter, List.mem_append]
  exact h.imp_right (List.mem_cons_of_mem x)

theorem mem_underlined? {c : Cursor} {more : List Block} (hb : ∀ s, b ≠ .paragraph s)
    (h : b ∈ blocks) (hunder : underlined? c blocks = some more) : b ∈ more := by
  cases blocks with
  | nil => cases hunder
  | cons a blocks =>
    cases a with
    | paragraph s =>
      obtain ⟨level, -, rfl⟩ := Option.map_eq_some_iff.mp hunder
      exact List.mem_cons_of_mem _ ((List.mem_cons.mp h).resolve_left (hb s))
    | _ => cases hunder

theorem mem_readText {c : Cursor} {rest : List Cursor} (hb : ∀ s, b ≠ .paragraph s)
    (h : b ∈ blocks) : b ∈ (readText tables blocks c rest).blocks := by
  unfold readText
  dsimp only
  split
  · exact List.mem_cons_of_mem _ h
  · split
    · exact List.mem_cons_of_mem _ h
    · exact mem_addLine hb h

/-- With this fuel the block, once read, is still there when lines after it are read. -/
structure Stays (b : Block) (tables : Bool) (fuel : Nat) : Prop where
  all : ∀ depth blocks lines, b ∈ blocks → b ∈ readAll tables fuel depth blocks lines
  start : ∀ depth blocks c rest s, b ∈ blocks → b ∈ (readBlock fuel depth blocks c rest s).blocks
  items : ∀ depth blocks sign start items item rest, b ∈ blocks →
    b ∈ (readItems fuel depth blocks sign start items item rest).blocks

theorem Stays.all_succ {fuel : Nat} (ih : Stays b tables fuel) (hb : ∀ s, b ≠ .paragraph s)
    (depth : Nat) (lines : List Cursor) (h : b ∈ blocks) :
    b ∈ readAll tables (fuel + 1) depth blocks lines := by
  cases lines with
  | nil => exact h
  | cons c rest =>
    rw [readAll]
    refine ih.all depth _ _ ?_
    split
    · exact List.mem_cons_of_mem _ h
    · split
      · next hunder => exact mem_underlined? hb h hunder
      · dsimp only
        split
        · exact ih.start _ _ _ _ _ h
        · exact mem_readText hb h

theorem Stays.start_succ {fuel : Nat} (ih : Stays b tables fuel) (hb : ∀ s, b ≠ .paragraph s)
    (depth : Nat) (c : Cursor) (rest : List Cursor) (s : BlockStart) (h : b ∈ blocks) :
    b ∈ (readBlock (fuel + 1) depth blocks c rest s).blocks := by
  cases s with
  | quote first =>
    rw [readBlock]
    dsimp only
    split
    · split
      · exact mem_insertAfter (ih.start _ _ _ _ _ h)
      · exact List.mem_cons_of_mem _ h
    · exact List.mem_cons_of_mem _ h
  | item item =>
    rw [readBlock]
    split
    · exact mem_addLine hb h
    · exact ih.items _ _ _ _ _ _ _ h
  | heading | thematicBreak | fence | html | indentedCode => exact List.mem_cons_of_mem _ h

theorem Stays.items_succ {fuel : Nat} (ih : Stays b tables fuel) (depth : Nat) (sign : ListSign)
    (start : Nat) (items : List (List Block)) (item : ItemStart) (rest : List Cursor)
    (h : b ∈ blocks) :
    b ∈ (readItems (fuel + 1) depth blocks sign start items item rest).blocks := by
  rw [readItems]
  split
  · split
    · split
      · exact ih.items _ _ _ _ _ _ _ h
      · exact List.mem_cons_of_mem _ h
    · exact mem_insertAfter (ih.start _ _ _ _ _ h)
    · exact List.mem_cons_of_mem _ h
  · exact List.mem_cons_of_mem _ h

/-- Only a paragraph is changed by the lines after it. -/
theorem stays (hb : ∀ s, b ≠ .paragraph s) (tables : Bool) (fuel : Nat) : Stays b tables fuel := by
  induction fuel with
  | zero => exact ⟨fun _ _ _ h => h, fun _ _ _ _ _ h => h, fun _ _ _ _ _ _ _ h => h⟩
  | succ fuel ih =>
    exact ⟨fun depth _ lines h => ih.all_succ hb depth lines h,
      fun depth _ c rest s h => ih.start_succ hb depth c rest s h,
      fun depth _ sign start items item rest h => ih.items_succ depth sign start items item rest h⟩

theorem mem_readAll {fuel depth : Nat} {lines : List Cursor} (hb : ∀ s, b ≠ .paragraph s)
    (h : b ∈ blocks) : b ∈ readAll tables fuel depth blocks lines :=
  (stays hb tables fuel).all depth blocks lines h

end Progress

theorem exists_readBlocks_eq (ext : Extensions) (s : List Char) :
    ∃ fuel, readBlocks ext s =
      (Progress.readAll ext.table (fuel + 2) 0 [] ((textLines s).map Cursor.ofLine)).reverse := by
  refine ⟨(BlockStart.maxDepth + 2) * (4 * ((textLines s).map Cursor.ofLine).length + 4) - 2, ?_⟩
  rw [Nat.sub_add_cancel]
  · rfl
  · rw [BlockStart.maxDepth]
    omega

end Markdown

end AdfMarkdown
