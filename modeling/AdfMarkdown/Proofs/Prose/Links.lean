import AdfMarkdown.Proofs.Prose.Scanning
import AdfMarkdown.Proofs.Prose.Structure
import Mathlib.Data.List.Infix

/-! # The links of prose

Every link of prose stands in one of the lines, with its destination as it is written. So the scan
for destinations finds all of them, and as there are no other signs of links it finds nothing
else.
-/

namespace AdfMarkdown

namespace Text

theorem prefix_splitAt {sep : Char} {w s : List Char} (hw : sep ∉ w) (h : w <+: s) :
    ∃ piece pieces, splitAt sep s = piece :: pieces ∧ w <+: piece := by
  induction s generalizing w with
  | nil => exact ⟨[], [], rfl, h⟩
  | cons c s ih =>
    rw [splitAt]
    cases w with
    | nil =>
      obtain ⟨piece, pieces, hs⟩ := List.exists_cons_of_ne_nil (splitAt_ne_nil sep s)
      rw [hs]
      split <;> exact ⟨_, _, rfl, List.nil_prefix⟩
    | cons d w =>
      rw [List.cons_prefix_cons] at h
      obtain ⟨rfl, h⟩ := h
      rw [List.mem_cons, not_or] at hw
      obtain ⟨piece, pieces, hs, hprefix⟩ := ih hw.2 h
      rw [if_neg (Ne.symm hw.1), hs]
      exact ⟨d :: piece, pieces, rfl, List.cons_prefix_cons.mpr ⟨rfl, hprefix⟩⟩

theorem infix_splitAt {sep : Char} {w s : List Char} (hw : sep ∉ w) (h : w <:+: s) :
    ∃ piece ∈ splitAt sep s, w <:+: piece := by
  induction s with
  | nil => exact ⟨[], List.mem_singleton_self _, h⟩
  | cons c s ih =>
    rcases List.infix_cons_iff.mp h with h | h
    · obtain ⟨piece, pieces, hs, hprefix⟩ := prefix_splitAt hw h
      exact ⟨piece, hs ▸ List.mem_cons_self, hprefix.isInfix⟩
    · obtain ⟨piece, hpiece, hinfix⟩ := ih h
      rw [splitAt]
      split
      · exact ⟨piece, List.mem_cons_of_mem _ hpiece, hinfix⟩
      · cases hs : splitAt sep s with
        | nil => exact absurd hs (splitAt_ne_nil sep s)
        | cons first rest =>
          rw [hs] at hpiece
          rcases List.mem_cons.mp hpiece with rfl | hpiece
          · exact ⟨c :: piece, List.mem_cons_self, hinfix.trans (List.suffix_cons c piece).isInfix⟩
          · exact ⟨piece, List.mem_cons_of_mem _ hpiece, hinfix⟩

theorem infix_join (sep : String) {l : String} {ls : List String} (h : l ∈ ls) :
    l.toList <:+: (join sep ls).toList := by
  induction ls with
  | nil => cases h
  | cons l' ls ih =>
    cases ls with
    | nil =>
      obtain rfl := List.mem_singleton.mp h
      exact List.infix_rfl
    | cons l'' ls =>
      rw [join_cons_cons, String.toList_append, String.toList_append]
      rcases List.mem_cons.mp h with rfl | h
      · rw [List.append_assoc]
        exact (List.prefix_append _ _).isInfix
      · exact (ih h).trans (List.suffix_append _ _).isInfix

end Text

namespace Prose

open Markdown LinkDestination

structure WrittenIn (ls : List String) (d : String) : Prop where
  ne_empty : d ≠ ""
  plain : d.toList.all isDestinationChar = true
  exists_line : ∃ l ∈ ls, linkEnd d <:+: l.toList

variable {ls ls' : List String} {d : String}

theorem WrittenIn.mono (h : WrittenIn ls d) (hls : ∀ l ∈ ls, ∃ l' ∈ ls', l.toList <:+: l'.toList) :
    WrittenIn ls' d := by
  obtain ⟨hne, hplain, l, hl, hinfix⟩ := h
  obtain ⟨l', hl', hwithin⟩ := hls l hl
  exact ⟨hne, hplain, l', hl', hinfix.trans hwithin⟩

theorem feed_not_mem_linkEnd (h : d.toList.all isDestinationChar = true) : '\n' ∉ linkEnd d := by
  have hfeed : '\n' ∉ d.toList := fun hmem =>
    absurd (isDestinationChar_cases (List.all_eq_true.mp h _ hmem)).1 (by decide)
  simp [linkEnd, hfeed]

theorem areLegible_link {before : Char} {rs : List Run} (h : areLegible before rs = true)
    (hd : d ∈ rs.filterMap Run.link) :
    d ≠ "" ∧ d.toList.all isDestinationChar = true ∧ linkEnd d <:+: chars rs := by
  induction rs generalizing before with
  | nil => cases hd
  | cons r rs ih =>
    rw [areLegible, Bool.and_eq_true] at h
    have hcases : r.link = some d ∨ d ∈ rs.filterMap Run.link := by
      rw [List.mem_filterMap] at hd ⊢
      obtain ⟨r', hr', hlink⟩ := hd
      rcases List.mem_cons.mp hr' with rfl | hr'
      · exact .inl hlink
      · exact .inr ⟨r', hr', hlink⟩
    have hchars : chars (r :: rs) = r.markdown.toList ++ chars rs := List.flatMap_cons
    rw [hchars]
    rcases hcases with hlink | hd
    · obtain ⟨link, style, text, hne, htext⟩ := r
      obtain rfl : link = some d := hlink
      have hplain : d.toList.all isDestinationChar = true := by
        have hr := h.1
        simp only [Run.isLegible, Bool.and_eq_true] at hr
        exact hr.1
      have hend : linkEnd d <:+ (Run.markdown ⟨some d, style, text, hne, htext⟩).toList :=
        ⟨'[' :: (style.sign ++ text ++ style.sign).toList,
          by simp [Run.markdown, Run.styled, linkEnd]⟩
      exact ⟨fun hempty => hne (congrArg some hempty), hplain,
        hend.isInfix.trans (List.prefix_append _ _).isInfix⟩
    · obtain ⟨hne, hplain, hinfix⟩ := ih h.2 hd
      exact ⟨hne, hplain, hinfix.trans (List.suffix_append _ _).isInfix⟩

theorem Phrase.Legible.writtenIn {p : Phrase} (hp : p.Legible) (hd : d ∈ p.runs.filterMap Run.link)
    (before : String) : WrittenIn (Text.lines (before ++ p.markdown)) d := by
  obtain ⟨hne, hplain, hinfix⟩ := areLegible_link hp.runs hd
  have hwithin : linkEnd d <:+: (before ++ p.markdown).toList := by
    rw [String.toList_append, p.toList_markdown]
    exact hinfix.trans (List.suffix_append _ _).isInfix
  obtain ⟨piece, hpiece, hinfix⟩ := Text.infix_splitAt (feed_not_mem_linkEnd hplain) hwithin
  exact ⟨hne, hplain, String.ofList piece, List.mem_map_of_mem hpiece,
    by rwa [String.toList_ofList]⟩

theorem suffix_quotedLine (line : String) : line.toList <:+ (quotedLine line).toList := by
  unfold quotedLine
  split
  · next hempty =>
    rw [hempty]
    exact List.nil_suffix
  · rw [String.toList_append]
    exact List.suffix_append _ _

namespace Block

mutual

theorem writtenIn : ∀ b : Block, b.Legible → ∀ d ∈ b.destinations, WrittenIn b.lines d
  | paragraph p, h, d, hd => by
    have hp : p.Flows := h
    rw [lines, ← String.empty_append (s := p.markdown)]
    exact hp.toLegible.writtenIn hd ""
  | heading level _ _ p, h, d, hd => by
    have hp : p.FitsHeading := h
    exact hp.toLegible.writtenIn hd _
  | bullet items _, h, d, hd => by
    obtain ⟨p, hp, hd⟩ := List.mem_flatMap.mp hd
    refine ((h p hp).toLegible.writtenIn hd "- ").mono fun l hl => ⟨l, ?_, List.infix_rfl⟩
    exact List.mem_flatMap.mpr ⟨p, hp, hl⟩
  | ordered start items _ _, h, d, hd => by
    obtain ⟨p, hp, hd⟩ := List.mem_flatMap.mp hd
    obtain ⟨n, hn⟩ : ∃ n, (p, n) ∈ items.zipIdx start := by
      have hp := hp
      rw [← List.zipIdx_map_fst start items, List.mem_map] at hp
      obtain ⟨⟨p', n⟩, hn, rfl⟩ := hp
      exact ⟨n, hn⟩
    refine ((h p hp).toLegible.writtenIn hd (toString n ++ ". ")).mono fun l hl =>
      ⟨l, ?_, List.infix_rfl⟩
    exact List.mem_flatMap.mpr ⟨(p, n), hn, hl⟩
  | quote first rest, h, d, hd => by
    have hinside : WrittenIn (linesAfter true (first :: rest)) d := by
      rcases List.mem_append.mp hd with hd | hd
      · refine (writtenIn first h.1 d hd).mono fun l hl => ⟨l, ?_, List.infix_rfl⟩
        exact List.mem_append_right [] (List.mem_append_left _ hl)
      · refine (writtenIn_linesAfter rest false h.2.2 d hd).mono fun l hl => ⟨l, ?_, List.infix_rfl⟩
        exact List.mem_append_right [] (List.mem_append_right _ hl)
    rw [lines, linesOfEach_eq_map, ← List.map_cons, intercalate_lines]
    exact hinside.mono fun l hl =>
      ⟨quotedLine l, List.mem_map_of_mem hl, (suffix_quotedLine l).isInfix⟩
  | code .., _, d, hd => by cases hd

theorem writtenIn_linesAfter : ∀ (bs : List Block) (isTaken : Bool), EachLegible bs →
    ∀ d ∈ destinationsOfEach bs, WrittenIn (linesAfter isTaken bs) d
  | [], _, _, d, hd => by cases hd
  | b :: bs, isTaken, h, d, hd => by
    rcases List.mem_append.mp hd with hd | hd
    · refine (writtenIn b h.1 d hd).mono fun l hl => ⟨l, ?_, List.infix_rfl⟩
      exact List.mem_append_right _ (List.mem_append_left _ hl)
    · refine (writtenIn_linesAfter bs false h.2.2 d hd).mono fun l hl => ⟨l, ?_, List.infix_rfl⟩
      exact List.mem_append_right _ (List.mem_append_right _ hl)

end

end Block

/-! ## The table -/

variable {blocks : List Block}

/-- A link of prose is written in the text as it is. -/
theorem Legible.writtenIn (h : Legible blocks) (hd : d ∈ Block.destinationsOfEach blocks) :
    d ≠ "" ∧ d.toList.all isDestinationChar = true ∧ linkEnd d <:+: (markdown blocks).toList := by
  obtain ⟨hne, hplain, l, hl, hinfix⟩ := Block.writtenIn_linesAfter blocks true h.each d hd
  refine ⟨hne, hplain, ?_⟩
  rw [markdown, Block.intercalate_lines]
  exact hinfix.trans (Text.infix_join "\n" hl)

/-- The signs of a link only stand at the end of one. -/
def Linked (ds : List String) (s : List Char) : Prop :=
  ∀ t, t <:+ s → [']', '('] <+: t → ∃ d ∈ ds, linkEnd d <+: t

theorem Linked.of_suffix {ds : List String} {s t : List Char} (h : Linked ds s) (ht : t <:+ s) :
    Linked ds t := fun u hu => h u (hu.trans ht)

theorem inlineFrom_linkEnd (hne : d ≠ "") (hplain : d.toList.all isDestinationChar = true)
    (s : List Char) : inlineFrom 0 (linkEnd d ++ s) = d.toList :: inlineFrom 0 s := by
  have hend : linkEnd d ++ s = ']' :: '(' :: (d.toList ++ ')' :: s) := by simp [linkEnd]
  rw [hend]
  exact inlineFrom_link_of_plain (by simpa using hne)
    (fun c hc => isPlain_of_isDestinationChar (List.all_eq_true.mp hplain c hc))
    (not_mem_of_isDestinationChar hplain (by decide)) s

variable {ds : List String}

/-- At the signs of a link there is a link, and what follows it is shorter. -/
theorem Linked.exists_link {s : List Char} (hs : Linked ds s) (h : [']', '('] <+: s) :
    ∃ d ∈ ds, ∃ t, s = linkEnd d ++ t ∧ t.length < s.length ∧ Linked ds t := by
  obtain ⟨d, hd, t, rfl⟩ := hs s List.suffix_rfl h
  refine ⟨d, hd, t, rfl, ?_, hs.of_suffix (List.suffix_append _ _)⟩
  rw [List.length_append]
  exact Nat.lt_add_of_pos_left (Nat.succ_pos _)

theorem mem_of_mem_inlineFrom (hds : ∀ d ∈ ds, d ≠ "" ∧ d.toList.all isDestinationChar = true)
    {w : List Char} (s : List Char) : Linked ds s → w ∈ inlineFrom 0 s → String.ofList w ∈ ds := by
  induction s using (measure List.length).wf.induction with
  | _ s ih =>
    intro hs hw
    cases s with
    | nil => cases hw
    | cons c s =>
      by_cases hlink : [']', '('] <+: c :: s
      · obtain ⟨d, hd, t, heq, hshort, ht⟩ := hs.exists_link hlink
        rw [heq, inlineFrom_linkEnd (hds d hd).1 (hds d hd).2] at hw
        rcases List.mem_cons.mp hw with rfl | hw
        · rwa [String.ofList_toList]
        · exact ih t hshort ht hw
      · rw [inlineFrom_cons_of_open hlink] at hw
        exact ih s (Nat.lt_succ_self _) (hs.of_suffix (List.suffix_cons c s)) hw

theorem infix_of_append {c : Char} {w u t : List Char} (hu : c ∉ u) (h : c :: w <:+: u ++ t) :
    c :: w <:+: t := by
  induction u with
  | nil => exact h
  | cons d u ih =>
    rw [List.mem_cons, not_or] at hu
    rw [List.cons_append, List.infix_cons_iff, List.cons_prefix_cons] at h
    exact h.elim (fun h => absurd h.1 hu.1) (ih hu.2)

theorem mem_inlineFrom (hds : ∀ d ∈ ds, d ≠ "" ∧ d.toList.all isDestinationChar = true)
    (hd : d ∈ ds) (s : List Char) :
    Linked ds s → linkEnd d <:+: s → d.toList ∈ inlineFrom 0 s := by
  induction s using (measure List.length).wf.induction with
  | _ s ih =>
    intro hs h
    cases s with
    | nil =>
      rw [List.infix_nil] at h
      cases h
    | cons c s =>
      by_cases hfirst : linkEnd d <+: c :: s
      · obtain ⟨t, ht⟩ := hfirst
        rw [← ht, inlineFrom_linkEnd (hds d hd).1 (hds d hd).2]
        exact List.mem_cons_self
      have h : linkEnd d <:+: s := (List.infix_cons_iff.mp h).resolve_left hfirst
      by_cases hlink : [']', '('] <+: c :: s
      · -- Another link stands here, and no link begins within it.
        obtain ⟨d', hd', t, heq, hshort, ht⟩ := hs.exists_link hlink
        have hbracket : ']' ∉ '(' :: (d'.toList ++ [')']) := by
          simp [not_mem_of_isDestinationChar (hds d' hd').2 (c := ']') (by decide)]
        have htail : s = '(' :: (d'.toList ++ [')']) ++ t := (List.cons.inj heq).2
        rw [htail] at h
        rw [heq, inlineFrom_linkEnd (hds d' hd').1 (hds d' hd').2]
        exact List.mem_cons_of_mem _ (ih t hshort ht (infix_of_append hbracket h))
      · rw [inlineFrom_cons_of_open hlink]
        exact ih s (Nat.lt_succ_self _) (hs.of_suffix (List.suffix_cons c s)) h

theorem entry_of_plain {w : List Char} (h : w.all isDestinationChar = true) :
    entry w = (Url.encodeText (String.ofList w), String.ofList w) := by
  rw [entry_eq, unescape_eq_self (not_mem_of_isDestinationChar h (by decide)), Url.encodeText,
    String.toList_ofList]

/-- The table of prose has its destinations. -/
theorem Legible.get?_table (h : Legible blocks) (hd : d ∈ Block.destinationsOfEach blocks) :
    Table.get? (Url.encodeText d) (LinkDestination.table (markdown blocks)) = some d := by
  have hds : ∀ d ∈ Block.destinationsOfEach blocks,
      d ≠ "" ∧ d.toList.all isDestinationChar = true :=
    fun d hd => ⟨(h.writtenIn hd).1, (h.writtenIn hd).2.1⟩
  have hlinked : Linked (Block.destinationsOfEach blocks) (markdown blocks).toList :=
    fun t ht => h.linked (List.ne_nil_of_mem hd) t ((List.mem_tails t _).mpr ht)
  have hfound := mem_inlineFrom hds hd _ hlinked (h.writtenIn hd).2.2
  obtain ⟨w, hw⟩ : ∃ w, (inlineFrom 0 (markdown blocks).toList).find?
      (fun w => (entry w).1 = Url.encodeText d) = some w := by
    rw [← Option.isSome_iff_exists, List.find?_isSome]
    refine ⟨d.toList, hfound, ?_⟩
    rw [entry_of_plain (hds d hd).2, String.ofList_toList]
    exact decide_eq_true rfl
  have hmem := mem_of_mem_inlineFrom hds _ hlinked (List.mem_of_find?_eq_some hw)
  have hplain : w.all isDestinationChar = true := by
    have hplain := (hds _ hmem).2
    rwa [String.toList_ofList] at hplain
  have hkey := List.find?_some hw
  rw [entry_of_plain hplain, decide_eq_true_iff] at hkey
  have hsame : String.ofList w = d := h.apart _ hmem _ hd hkey
  rw [LinkDestination.table, get?_foldl_add, List.find?_append, hw, Option.some_or, Option.map_some,
    entry_of_plain hplain, hsame]
  rfl

end Prose

end AdfMarkdown
