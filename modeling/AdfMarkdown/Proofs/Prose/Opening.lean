import AdfMarkdown.Proofs.Destinations
import AdfMarkdown.Proofs.JsonText
import AdfMarkdown.Proofs.Prose.Legible
import AdfMarkdown.Proofs.Trimming

/-! # What lines start

A line that opens text starts no block, whatever stands before it. The first lines of the other
blocks start just what they were printed for.
-/

namespace AdfMarkdown.Prose

open Markdown

structure At (c : Cursor) (line : List Char) : Prop where
  rest : c.rest = line
  pending : c.pending = 0

variable {c : Cursor} {d : Char} {s : List Char}

section Unindented

theorem At.indent (h : At c (d :: s)) (hd : Text.isBlank d = false) : c.indent = 0 := by
  simp only [Text.isBlank, Bool.or_eq_false_iff, beq_eq_false_iff_ne] at hd
  simp [Cursor.indent, h.rest, h.pending, Cursor.blankWidth, hd.1, hd.2]

theorem At.body (h : At c (d :: s)) (hd : Text.isBlank d = false) : c.body = d :: s := by
  rw [Cursor.body, h.rest, List.dropWhile_cons_of_neg (by simp [hd])]

theorem At.skipBlanks (h : At c (d :: s)) (hd : Text.isBlank d = false) : c.skipBlanks = c := by
  rw [Cursor.skipBlanks, h.indent hd, Cursor.advance, if_pos (Nat.zero_le _)]
  rfl

theorem isBlank_of_not_isSpace (h : Text.isSpace d = false) : Text.isBlank d = false := by
  rw [Text.isBlank, Bool.or_eq_false_iff, beq_eq_false_iff_ne, beq_eq_false_iff_ne]
  constructor <;>
  · rintro rfl
    exact absurd h (by decide)

end Unindented

/-- The three ways to open text: with a sign that something else than a blank has to follow, with
a sign of a fence that is too short, and with what is neither. -/
theorem opensText_cases (h : opensText (d :: s) = true) :
    Text.isSpace d = false ∧
      ((d = '#' ∨ d = '*' ∨ d = '+' ∨ d = '=') ∧
        (∃ e t, s.dropWhile (· == d) = e :: t ∧ Text.isBlank e = false ∧ e ≠ d) ∨
      (d = '\x60' ∨ d = '~') ∧ ¬ [d, d] <+: s ∨
      (∀ e ∈ "#*+=\x60~>-|:<_".toList, d ≠ e) ∧
        (Text.isDigit d = true → endsNumber s = false)) := by
  simp only [opensText, Bool.and_eq_true, Bool.not_eq_true'] at h
  obtain ⟨hspace, h⟩ := h
  refine ⟨hspace, ?_⟩
  split_ifs at h with hsign hfence
  · left
    rw [show "#*+=".toList = ['#', '*', '+', '='] from rfl] at hsign
    refine ⟨by simpa using hsign, ?_⟩
    have hnot := List.head?_dropWhile_not (· == d) s
    cases hs : s.dropWhile (· == d) with
    | nil =>
      rw [hs] at h
      cases h
    | cons e t =>
      rw [hs] at h hnot
      exact ⟨e, t, rfl, by simpa using h, by simpa using hnot⟩
  · right
    left
    refine ⟨by simpa using hfence, ?_⟩
    rw [Bool.not_eq_true'] at h
    rw [← List.isPrefixOf_iff_prefix, h]
    exact Bool.false_ne_true
  · right
    right
    simp only [Bool.not_eq_true', Bool.or_eq_false_iff, Bool.and_eq_false_imp] at h
    refine ⟨?_, h.2⟩
    rintro e he rfl
    have hmem : d ∈ "#*+=".toList ∨ (d = '\x60' ∨ d = '~') ∨ d ∈ ">-|:<_".toList := by
      have hsplit : "#*+=\x60~>-|:<_".toList =
          "#*+=".toList ++ (['\x60', '~'] ++ ">-|:<_".toList) := rfl
      rw [hsplit, List.mem_append, List.mem_append] at he
      simpa using he
    rcases hmem with hmem | hmem | hmem
    · exact hsign (List.contains_iff_mem.mpr hmem)
    · exact hfence (by simpa using hmem)
    · have hnot := h.1
      rw [List.contains_iff_mem.mpr hmem] at hnot
      cases hnot

section Text

variable (hopens : opensText (d :: s) = true)

include hopens

theorem heading?_eq_none : BlockStart.heading? (d :: s) = none := by
  unfold BlockStart.heading?
  dsimp only
  by_cases hd : d = '#'
  · subst hd
    obtain ⟨-, ⟨-, e, t, hs, hblank, -⟩ | ⟨h, -⟩ | ⟨h, -⟩⟩ := opensText_cases hopens
    · have hdrop : ('#' :: s).drop (('#' :: s).takeWhile (· == '#')).length = e :: t := by
        rw [Text.drop_length_takeWhile, ← hs]
        rfl
      rw [hdrop]
      simp [hblank]
    · simp at h
    · exact absurd rfl (h '#' (by decide))
  · have hlevel : (d :: s).takeWhile (· == '#') = [] :=
      List.takeWhile_cons_of_neg (by simpa using hd)
    simp [hlevel]

theorem openingSigns_eq_none : BlockStart.openingSigns (d :: s) = none := by
  have hshort : (d = '\x60' ∨ d = '~') → ¬ 3 ≤ ((d :: s).takeWhile (· == d)).length := by
    intro hd hlength
    obtain ⟨-, ⟨h, -⟩ | ⟨-, h⟩ | ⟨h, -⟩⟩ := opensText_cases hopens
    · rcases hd with rfl | rfl <;> simp at h
    · apply h
      rw [List.takeWhile_cons_of_pos (by simp), List.length_cons] at hlength
      cases s with
      | nil => simp at hlength
      | cons x s =>
        by_cases hx : x = d
        · subst hx
          cases s with
          | nil => simp at hlength
          | cons y s =>
            by_cases hy : y = x
            · subst hy
              exact ⟨s, rfl⟩
            · simp [hy] at hlength
        · simp [hx] at hlength
    · rcases hd with rfl | rfl
      · exact h '\x60' (by decide) rfl
      · exact h '~' (by decide) rfl
  unfold BlockStart.openingSigns
  dsimp only
  rw [if_neg]
  simp only [Bool.and_eq_true, Bool.or_eq_true, beq_iff_eq, decide_eq_true_eq, not_and]
  exact hshort

theorem isThematicBreak_eq_false : BlockStart.isThematicBreak (d :: s) = false := by
  obtain ⟨hspace, h⟩ := opensText_cases hopens
  have hblank := isBlank_of_not_isSpace hspace
  have hsigns : (d :: s).filter (!Text.isBlank ·) = d :: s.filter (!Text.isBlank ·) :=
    List.filter_cons_of_pos (by simp [hblank])
  unfold BlockStart.isThematicBreak
  simp only [hsigns]
  rcases h with ⟨-, e, t, hs, he, hne⟩ | ⟨h, -⟩ | ⟨h, -⟩
  · have hmem : e ∈ s.filter (!Text.isBlank ·) := by
      have hsuffix := List.dropWhile_suffix (l := s) (· == d)
      rw [hs] at hsuffix
      exact List.mem_filter.mpr ⟨hsuffix.subset List.mem_cons_self, by simp [he]⟩
    have hall : (d :: s.filter (!Text.isBlank ·)).all (· == d) = false := by
      rw [List.all_eq_false]
      exact ⟨e, List.mem_cons_of_mem d hmem, by simpa using hne⟩
    rw [hall, Bool.and_false, Bool.false_and]
  · rcases h with rfl | rfl <;> rfl
  · have h1 := h '*' (by decide)
    have h2 := h '-' (by decide)
    have h3 := h '_' (by decide)
    simp [h1, h2, h3]

theorem exists_of_bullet (hbullet : d = '-' ∨ d = '+' ∨ d = '*') :
    ∃ e t, s = e :: t ∧ Text.isBlank e = false := by
  obtain ⟨hspace, ⟨-, e, t, hs, he, -⟩ | ⟨h, -⟩ | ⟨h, -⟩⟩ := opensText_cases hopens
  · cases s with
    | nil => cases hs
    | cons x s =>
      refine ⟨x, s, rfl, ?_⟩
      by_cases hx : x = d
      · rw [hx]
        exact isBlank_of_not_isSpace hspace
      · rw [List.dropWhile_cons_of_neg (by simpa using hx)] at hs
        rwa [(List.cons.inj hs).1]
  · rcases h with rfl | rfl <;> simp at hbullet
  · rcases hbullet with rfl | rfl | rfl <;> exact absurd rfl (h _ (by decide))

theorem exists_of_number (hdigit : Text.isDigit d = true) {x : Char} {rest : List Char}
    (hs : s.dropWhile Text.isDigit = x :: rest) (hx : x = '.' ∨ x = ')') :
    ∃ e t, rest = e :: t ∧ Text.isBlank e = false := by
  have hends : endsNumber s = false := by
    obtain ⟨-, ⟨h, -⟩ | ⟨h, -⟩ | ⟨-, h⟩⟩ := opensText_cases hopens
    · rcases h with rfl | rfl | rfl | rfl <;> cases hdigit
    · rcases h with rfl | rfl <;> cases hdigit
    · exact h hdigit
  have hsign : (x == '.' || x == ')') = true := by simpa using hx
  rw [endsNumber, hs] at hends
  dsimp only at hends
  rw [hsign, Bool.true_and] at hends
  cases rest with
  | nil => cases hends
  | cons e t => exact ⟨e, t, rfl, hends⟩

theorem drop_of_listSign? {sign : ListSign} {number length : Nat}
    (h : BlockStart.listSign? (d :: s) = some (sign, number, length)) :
    ∃ e t, (d :: s).drop length = e :: t ∧ Text.isBlank e = false := by
  unfold BlockStart.listSign? at h
  dsimp only at h
  split_ifs at h with hbullet
  · cases h
    exact exists_of_bullet hopens (by simpa [or_assoc] using hbullet)
  · by_cases hdigit : Text.isDigit d = true
    · have hlength : ((d :: s).takeWhile Text.isDigit).length =
          (s.takeWhile Text.isDigit).length + 1 := by
        rw [List.takeWhile_cons_of_pos hdigit, List.length_cons]
      rw [Text.drop_length_takeWhile, List.dropWhile_cons_of_pos hdigit] at h
      cases hs : s.dropWhile Text.isDigit with
      | nil =>
        rw [hs] at h
        cases h
      | cons x rest =>
        rw [hs] at h
        dsimp only at h
        split_ifs at h with hx
        cases h
        have hdrop : (d :: s).drop (((d :: s).takeWhile Text.isDigit).length + 1) = rest := by
          rw [hlength, List.drop_succ_cons, ← List.drop_drop, Text.drop_length_takeWhile, hs]
          rfl
        simp only [Bool.and_eq_true, Bool.or_eq_true, beq_iff_eq] at hx
        rw [hdrop]
        exact exists_of_number hopens hdigit hs hx.1.1
    · have hnone : (d :: s).takeWhile Text.isDigit = [] := List.takeWhile_cons_of_neg hdigit
      rw [hnone] at h
      simp at h

theorem item?_eq_none (h : At c (d :: s)) : BlockStart.item? c = none := by
  obtain ⟨hspace, -⟩ := opensText_cases hopens
  have hblank := isBlank_of_not_isSpace hspace
  unfold BlockStart.item?
  rw [h.skipBlanks hblank]
  dsimp only
  rw [h.rest]
  cases hsign : BlockStart.listSign? (d :: s) with
  | none => rfl
  | some r =>
    obtain ⟨sign, number, length⟩ := r
    obtain ⟨e, t, hdrop, he⟩ := drop_of_listSign? hopens hsign
    have hafter : At (c.dropChars length) (e :: t) := ⟨by rw [← hdrop, ← h.rest]; rfl, rfl⟩
    simp [hafter.indent he, hafter.rest]

theorem underline?_eq_none (h : At c (d :: s)) : BlockStart.underline? c = none := by
  obtain ⟨hspace, hcases⟩ := opensText_cases hopens
  have hblank := isBlank_of_not_isSpace hspace
  unfold BlockStart.underline?
  simp only [h.indent hblank, h.body hblank, Text.trimRight_cons hblank]
  rw [if_neg (by decide)]
  split
  · next heq =>
    obtain rfl := (List.cons.inj heq).1
    rcases hcases with ⟨-, e, t, hs, he, hne⟩ | ⟨h, -⟩ | ⟨h, -⟩
    · have hsuffix := List.dropWhile_suffix (l := s) (· == '=')
      rw [hs] at hsuffix
      have hmem := Text.mem_trimRight (hsuffix.subset List.mem_cons_self) he
      rw [if_neg]
      intro hall
      exact hne (by simpa using List.all_eq_true.mp hall e (List.mem_cons_of_mem _ hmem))
    · simp at h
    · exact absurd rfl (h '=' (by decide))
  · next heq =>
    obtain rfl := (List.cons.inj heq).1
    rcases hcases with ⟨h, -⟩ | ⟨h, -⟩ | ⟨h, -⟩
    · simp at h
    · simp at h
    · exact absurd rfl (h '-' (by decide))
  · rfl

end Text

theorem quote?_eq_none (h : At c (d :: s)) (hblank : Text.isBlank d = false) (hd : d ≠ '>') :
    BlockStart.quote? c = none := by
  unfold BlockStart.quote?
  rw [h.indent hblank, h.skipBlanks hblank, h.rest, if_neg (by decide)]
  split
  · next heq => exact absurd (List.cons.inj heq).1 hd
  · rfl

theorem blockStart?_eq_none (hd : d ≠ '<') (interrupts : Bool) :
    Html.blockStart? interrupts (d :: s) = none := by
  unfold Html.blockStart?
  split
  all_goals first
    | rfl
    | next heq => exact absurd (List.cons.inj heq).1 hd

variable {depth : Nat} {position : BlockStart.Position}

theorem read?_eq (h : At c (d :: s)) (hblank : Text.isBlank d = false) (hquote : d ≠ '>')
    (hhtml : d ≠ '<') :
    BlockStart.read? depth position c =
      ((BlockStart.heading? (d :: s)).or ((BlockStart.fence? 0 (d :: s)).map .fence)).or
        (if BlockStart.isThematicBreak (d :: s) then some .thematicBreak
        else ((if depth < BlockStart.maxDepth then BlockStart.item? c else none).filter fun start =>
          position != .paragraph || start.interrupts).map .item) := by
  have hnone : (if depth < BlockStart.maxDepth then BlockStart.quote? c else none) = none := by
    rw [quote?_eq_none h hblank hquote, ite_self]
  unfold BlockStart.read?
  rw [h.indent hblank, h.body hblank, hnone, if_neg (by decide)]
  simp only [blockStart?_eq_none hhtml]
  cases BlockStart.heading? (d :: s) with
  | some start => rfl
  | none =>
    cases BlockStart.fence? 0 (d :: s) with
    | some f => rfl
    | none =>
      simp only [Option.map_none, Option.none_or]
      split
      · rfl
      · cases (if depth < BlockStart.maxDepth then BlockStart.item? c else none) with
        | none => rfl
        | some start =>
          cases position <;> cases hi : start.interrupts <;> simp [hi]

/-- A line that opens text starts no block. -/
theorem read?_eq_none (hopens : opensText (d :: s) = true) (h : At c (d :: s)) :
    BlockStart.read? depth position c = none := by
  obtain ⟨hspace, hcases⟩ := opensText_cases hopens
  have hblank := isBlank_of_not_isSpace hspace
  have hd : d ≠ '>' ∧ d ≠ '<' := by
    rcases hcases with ⟨h, -⟩ | ⟨h, -⟩ | ⟨h, -⟩
    · rcases h with rfl | rfl | rfl | rfl <;> decide
    · rcases h with rfl | rfl <;> decide
    · exact ⟨h '>' (by decide), h '<' (by decide)⟩
  have hfence : BlockStart.fence? 0 (d :: s) = none := by
    rw [BlockStart.fence?, openingSigns_eq_none hopens]
    rfl
  rw [read?_eq h hblank hd.1 hd.2, heading?_eq_none hopens, hfence,
    isThematicBreak_eq_false hopens, item?_eq_none hopens h, ite_self]
  rfl

/-! ## First lines of blocks -/

theorem isEdge_of_not_isSpace (h : Text.isSpace d = false) : BlockStart.isEdge d = false := by
  rw [Bool.eq_false_iff]
  intro hedge
  simp only [BlockStart.isEdge, Bool.or_eq_true, beq_iff_eq] at hedge
  rcases hedge with (((rfl | rfl) | rfl) | rfl) | rfl <;> exact absurd h (by decide)

theorem trim_isEdge {text : List Char} (hfirst : ∀ d ∈ text.head?, Text.isSpace d = false)
    (hlast : ∀ d ∈ text.getLast?, Text.isSpace d = false) :
    Text.trim BlockStart.isEdge text = text :=
  Text.trim_eq_self (fun d hd => isEdge_of_not_isSpace (hfirst d hd))
    fun d hd => isEdge_of_not_isSpace (hlast d hd)

theorem heading?_of_ne (hd : d ≠ '#') : BlockStart.heading? (d :: s) = none := by
  have hlevel : (d :: s).takeWhile (· == '#') = [] := List.takeWhile_cons_of_neg (by simpa using hd)
  simp [BlockStart.heading?, hlevel]

theorem withoutClosing_eq {text : List Char} (hfirst : ∀ d ∈ text.head?, Text.isSpace d = false)
    (hlast : ∀ d ∈ text.getLast?, Text.isSpace d = false) (hsign : text.getLast? ≠ some '#') :
    BlockStart.withoutClosing (' ' :: text) = text := by
  have htrim : Text.trim BlockStart.isEdge (' ' :: text) = text := trim_isEdge hfirst hlast
  have hnone : text.reverse.takeWhile (· == '#') = [] := by
    rw [← List.head?_reverse] at hsign
    cases hr : text.reverse with
    | nil => rfl
    | cons d t =>
      rw [hr] at hsign
      exact List.takeWhile_cons_of_neg (by simpa using hsign)
  unfold BlockStart.withoutClosing
  rw [htrim]
  simp [hnone]

theorem read?_numberSigns {level : Nat} {text : List Char} (hone : 1 ≤ level) (hsix : level ≤ 6)
    (h : At c (List.replicate level '#' ++ ' ' :: text)) :
    BlockStart.read? depth position c =
      some (.heading level (BlockStart.withoutClosing (' ' :: text))) := by
  obtain ⟨n, rfl⟩ : ∃ n, level = n + 1 := ⟨level - 1, by omega⟩
  have hsigns : (List.replicate (n + 1) '#' ++ ' ' :: text).takeWhile (· == '#') =
      List.replicate (n + 1) '#' := by
    rw [List.takeWhile_append_of_pos (by simp), List.takeWhile_cons_of_neg (by decide),
      List.append_nil]
  have hheading : BlockStart.heading? ('#' :: (List.replicate n '#' ++ ' ' :: text)) =
      some (.heading (n + 1) (BlockStart.withoutClosing (' ' :: text))) := by
    rw [← List.cons_append, ← List.replicate_succ]
    unfold BlockStart.heading?
    simp only [hsigns, List.length_replicate, List.drop_left' (List.length_replicate)]
    rw [if_neg (by omega)]
    rfl
  rw [List.replicate_succ, List.cons_append] at h
  rw [read?_eq h (by decide) (by decide) (by decide), hheading]
  rfl

theorem read?_heading {level : Nat} {text : List Char} (hone : 1 ≤ level) (hsix : level ≤ 6)
    (hfirst : ∀ d ∈ text.head?, Text.isSpace d = false)
    (hlast : ∀ d ∈ text.getLast?, Text.isSpace d = false) (hsign : text.getLast? ≠ some '#')
    (h : At c (List.replicate level '#' ++ ' ' :: text)) :
    BlockStart.read? depth position c = some (.heading level text) := by
  rw [read?_numberSigns hone hsix h, withoutClosing_eq hfirst hlast hsign]

theorem isLanguage_cases {language : List Char} (h : isLanguage language = true) :
    ∀ d ∈ language, Text.isSpace d = false ∧ d ≠ '\x60' ∧ d ≠ '\\' := by
  intro d hd
  rw [isLanguage, Bool.and_eq_true] at h
  simpa [and_assoc] using List.all_eq_true.mp h.2 d hd

theorem read?_openingFence {language : List Char}
    (hlanguage : ∀ d ∈ language, Text.isSpace d = false ∧ d ≠ '\x60')
    (h : At c ("```".toList ++ language)) :
    BlockStart.read? depth position c =
      some (.fence ⟨'\x60', 3, 0, Url.unescape language⟩) := by
  have hticks : '\x60' ∉ language := fun hmem => (hlanguage _ hmem).2 rfl
  have htrim : Text.trim BlockStart.isEdge language = language :=
    trim_isEdge (fun d hd => (hlanguage d (List.mem_of_mem_head? hd)).1)
      fun d hd => (hlanguage d (List.mem_of_mem_getLast? hd)).1
  have hnone : language.takeWhile (· == '\x60') = [] := by
    cases language with
    | nil => rfl
    | cons d t =>
      exact List.takeWhile_cons_of_neg (by simpa using (hlanguage d List.mem_cons_self).2)
  have hsigns : BlockStart.openingSigns ('\x60' :: '\x60' :: '\x60' :: language) =
      some ('\x60', 3) := by
    simp [BlockStart.openingSigns, hnone]
  have hfence : BlockStart.fence? 0 ('\x60' :: '\x60' :: '\x60' :: language) =
      some ⟨'\x60', 3, 0, Url.unescape language⟩ := by
    simp [BlockStart.fence?, hsigns, hticks, htrim]
  have hline : At c ('\x60' :: '\x60' :: '\x60' :: language) := h
  rw [read?_eq hline (by decide) (by decide) (by decide), heading?_of_ne (by decide), hfence]
  rfl

theorem read?_fence {language : List Char} (hlanguage : ∀ d ∈ language,
    Text.isSpace d = false ∧ d ≠ '\x60' ∧ d ≠ '\\') (h : At c ("```".toList ++ language)) :
    BlockStart.read? depth position c = some (.fence ⟨'\x60', 3, 0, language⟩) := by
  have hbackslash : '\\' ∉ language := fun hmem => (hlanguage _ hmem).2.2 rfl
  rw [read?_openingFence (fun d hd => ⟨(hlanguage d hd).1, (hlanguage d hd).2.1⟩) h,
    LinkDestination.unescape_eq_self hbackslash]

theorem toList_quotedLine (line : String) : ∃ t, (quotedLine line).toList = '>' :: t := by
  unfold quotedLine
  split
  · exact ⟨_, rfl⟩
  · exact ⟨_, String.toList_append⟩

theorem quote?_quotedLine {line : String} (h : At c (quotedLine line).toList) :
    ∃ c', BlockStart.quote? c = some c' ∧ At c' line.toList := by
  obtain ⟨t, ht⟩ := toList_quotedLine line
  rw [ht] at h
  have hquote : BlockStart.quote? c = some ((c.dropChars 1).advance 1) := by
    unfold BlockStart.quote?
    rw [h.indent (by decide), h.skipBlanks (by decide), h.rest, if_neg (by decide)]
    rfl
  refine ⟨_, hquote, ?_⟩
  have hafter : c.dropChars 1 = ⟨t, c.column + 1, 0⟩ := by rw [Cursor.dropChars, h.rest]; rfl
  rw [hafter, Cursor.advance, if_neg (Nat.not_succ_le_zero 0)]
  unfold quotedLine at ht
  split at ht
  · next hempty =>
    subst hempty
    obtain rfl := (List.cons.inj ht).2
    exact ⟨rfl, rfl⟩
  · have hline : ' ' :: line.toList = t := by
      rw [String.toList_append] at ht
      exact (List.cons.inj ht).2
    rw [← hline]
    cases line.toList <;> exact ⟨rfl, rfl⟩

theorem read?_quote {c' : Cursor} (hquote : BlockStart.quote? c = some c')
    (hdepth : depth < BlockStart.maxDepth) :
    BlockStart.read? depth position c = some (.quote c') := by
  have hindent : ¬ 3 < c.indent := by
    intro hdeep
    rw [BlockStart.quote?, if_pos hdeep] at hquote
    cases hquote
  rw [BlockStart.read?, if_neg hindent, if_pos hdepth, hquote]

/-- What a list puts before an item with a number. A list with bullets counts from one. -/
inductive Marks : ListSign → Nat → List Char → Prop where
  | bullet : Marks (.bullet '-') 1 ['-']
  | number {n : Nat} (short : n < 1000000000) :
    Marks (.number '.') n ((toString n).toList ++ ['.'])

theorem not_mem_number (hdigit : Text.isDigit d = false) (hsign : d ∉ ['.', ' ']) (n : Nat) :
    d ∉ (toString n ++ ". ").toList := by
  rw [String.toList_append, List.mem_append,
    show (toString n).toList = Nat.toDigits 10 n from Nat.toList_repr]
  rintro (h | h)
  · rw [Json.isDigit_of_mem_toDigits h] at hdigit
    cases hdigit
  · exact hsign h

theorem isSpace_of_sign (h : d = '-' ∨ Text.isDigit d = true) : Text.isSpace d = false := by
  rcases h with rfl | h
  · rfl
  · have hbounds : 48 ≤ d.toNat ∧ d.toNat ≤ 57 := of_decide_eq_true h
    simp [Text.isSpace]
    omega

theorem listSign?_number {n : Nat} (hn : n < 1000000000) (text : List Char) :
    BlockStart.listSign? ((toString n).toList ++ '.' :: text) =
      some (.number '.', n, (toString n).toList.length + 1) := by
  have hdigits : (toString n).toList = Nat.toDigits 10 n := Nat.toList_repr
  rw [hdigits]
  have hall : ∀ d ∈ Nat.toDigits 10 n, Text.isDigit d = true :=
    fun d => Json.isDigit_of_mem_toDigits
  have hlength : (Nat.toDigits 10 n).length ≤ 9 :=
    (Nat.length_toDigits_le_iff (by decide) (by decide)).mpr hn
  have hne : Nat.toDigits 10 n ≠ [] := Nat.toDigits_ne_nil
  have htake : (Nat.toDigits 10 n ++ '.' :: text).takeWhile Text.isDigit = Nat.toDigits 10 n := by
    rw [List.takeWhile_append_of_pos hall, List.takeWhile_cons_of_neg (by decide), List.append_nil]
  have hvalue := Json.digitsValue_toDigits n
  cases hs : Nat.toDigits 10 n with
  | nil => exact absurd hs hne
  | cons d t =>
    rw [hs] at hall htake hlength hvalue
    have hd : (d == '-' || d == '+' || d == '*') = false := by
      have hd := hall d List.mem_cons_self
      rw [Bool.eq_false_iff]
      intro hsign
      simp only [Bool.or_eq_true, beq_iff_eq] at hsign
      rcases hsign with (rfl | rfl) | rfl <;> cases hd
    simp only [BlockStart.listSign?, List.cons_append, hd, Bool.false_eq_true, if_false]
    rw [List.cons_append] at htake
    simp only [htake, List.length_cons] at hlength ⊢
    simp [hlength, hvalue]

namespace Marks

variable {sign : ListSign} {number : Nat} {marker : List Char}

theorem listSign?_eq (hmarks : Marks sign number marker) (text : List Char) :
    BlockStart.listSign? (marker ++ text) = some (sign, number, marker.length) := by
  cases hmarks with
  | bullet => rfl
  | number short =>
    rw [List.append_assoc, List.length_append]
    exact listSign?_number short text

theorem exists_cons (hmarks : Marks sign number marker) :
    ∃ d t, marker = d :: t ∧ (d = '-' ∨ Text.isDigit d = true) := by
  cases hmarks with
  | bullet => exact ⟨'-', [], rfl, .inl rfl⟩
  | number short =>
    have hdigits : (toString number).toList = Nat.toDigits 10 number := Nat.toList_repr
    rw [hdigits]
    cases hs : Nat.toDigits 10 number with
    | nil => exact absurd hs Nat.toDigits_ne_nil
    | cons d t =>
      have hd : d ∈ Nat.toDigits 10 number := hs ▸ List.mem_cons_self
      exact ⟨d, t ++ ['.'], rfl, .inr (Json.isDigit_of_mem_toDigits hd)⟩

end Marks

theorem item?_eq {marker text : List Char} {sign : ListSign} {number : Nat}
    (hmarks : Marks sign number marker) (htext : opensText text = true)
    (h : At c (marker ++ ' ' :: text)) :
    ∃ content, At content text ∧ BlockStart.item? c =
      some ⟨sign, number, marker.length, marker.length + 1, some content⟩ := by
  have hsign := hmarks.listSign?_eq (' ' :: text)
  obtain ⟨d, t, rfl, hd⟩ := hmarks.exists_cons
  have hblank : Text.isBlank d = false := isBlank_of_not_isSpace (isSpace_of_sign hd)
  have hstart := h.skipBlanks hblank
  have hindent := h.indent hblank
  have hafter : c.dropChars (d :: t).length = ⟨' ' :: text, c.column + (d :: t).length, 0⟩ := by
    rw [Cursor.dropChars, h.rest, List.drop_left]
  cases text with
  | nil => cases htext
  | cons e text =>
    have hspace := (opensText_cases htext).1
    have he := isBlank_of_not_isSpace hspace
    simp only [Text.isBlank, Bool.or_eq_false_iff, beq_eq_false_iff_ne] at he
    refine ⟨⟨e :: text, c.column + (d :: t).length + 1, 0⟩, ⟨rfl, rfl⟩, ?_⟩
    unfold BlockStart.item?
    rw [hstart, hindent]
    dsimp only
    rw [h.rest, hsign]
    dsimp only [Option.bind_eq_bind, Option.bind_some]
    rw [hafter]
    simp [Cursor.indent, Cursor.blankWidth, he, Text.isSpaces, hspace, Cursor.advance,
      Cursor.takeBlanks]

theorem isThematicBreak_item {t text : List Char} (hd : d = '-' ∨ Text.isDigit d = true)
    (htext : opensText text = true) :
    BlockStart.isThematicBreak (d :: (t ++ ' ' :: text)) = false := by
  have hsigns : (d :: (t ++ ' ' :: text)).filter (!Text.isBlank ·) =
      d :: (t ++ ' ' :: text).filter (!Text.isBlank ·) :=
    List.filter_cons_of_pos (by simp [isBlank_of_not_isSpace (isSpace_of_sign hd)])
  unfold BlockStart.isThematicBreak
  simp only [hsigns]
  rcases hd with rfl | hd
  · cases text with
    | nil => cases htext
    | cons e text =>
      obtain ⟨hspace, hcases⟩ := opensText_cases htext
      have he : e ≠ '-' := by
        rintro rfl
        rcases hcases with ⟨h, -⟩ | ⟨h, -⟩ | ⟨h, -⟩
        · simp at h
        · simp at h
        · exact h '-' (by decide) rfl
      have hmem : e ∈ (t ++ ' ' :: e :: text).filter (!Text.isBlank ·) :=
        List.mem_filter.mpr ⟨by simp, by simp [isBlank_of_not_isSpace hspace]⟩
      have hall : ('-' :: (t ++ ' ' :: e :: text).filter (!Text.isBlank ·)).all (· == '-') =
          false :=
        List.all_eq_false.mpr ⟨e, List.mem_cons_of_mem _ hmem, by simpa using he⟩
      rw [hall, Bool.and_false, Bool.false_and]
  · have hsign : (d == '*' || d == '-' || d == '_') = false := by
      rw [Bool.eq_false_iff]
      intro hsign
      simp only [Bool.or_eq_true, beq_iff_eq] at hsign
      rcases hsign with (rfl | rfl) | rfl <;> cases hd
    rw [hsign, Bool.false_and, Bool.false_and]

/-- An item is read as one wherever it does not interrupt a paragraph. -/
theorem read?_item {marker text : List Char} {sign : ListSign} {number : Nat}
    (hmarks : Marks sign number marker) (htext : opensText text = true)
    (hdepth : depth < BlockStart.maxDepth) (hposition : position ≠ .paragraph)
    (h : At c (marker ++ ' ' :: text)) {item : ItemStart} (hitem : BlockStart.item? c = some item) :
    BlockStart.read? depth position c = some (.item item) := by
  obtain ⟨d, t, rfl, hd⟩ := hmarks.exists_cons
  have hblank : Text.isBlank d = false := isBlank_of_not_isSpace (isSpace_of_sign hd)
  have hne : d ≠ '>' ∧ d ≠ '<' ∧ d ≠ '#' ∧ d ≠ '\x60' ∧ d ≠ '~' := by
    refine ⟨?_, ?_, ?_, ?_, ?_⟩ <;>
    · rintro rfl
      revert hd
      decide
  have hfence : BlockStart.fence? 0 (d :: (t ++ ' ' :: text)) = none := by
    simp [BlockStart.fence?, BlockStart.openingSigns, hne]
  rw [List.cons_append] at h
  rw [read?_eq h hblank hne.1 hne.2.1, heading?_of_ne hne.2.2.1, hfence,
    isThematicBreak_item hd htext, if_pos hdepth, hitem]
  simp [hposition]

end AdfMarkdown.Prose
