import AdfMarkdown.Proofs.Prose.Legible

/-! # Pairs of delimiters

An open bracket and a run of delimiters that pairs with none end up as the text that they are. Text
between two runs of one length becomes emphasis, and what follows finds nothing open.
-/

namespace AdfMarkdown.Prose

open Markdown

/-- A bracket or a run that neither opens nor closes, as the text it ends up as. -/
def settle : Piece → Piece
  | .bracket b => .inline (.text (if b.image then ['!', '['] else ['[']))
  | .run r =>
    if r.opens || r.closes || r.length == 0 then .run r
    else .inline (Emphasis.signs r.sign r.length)
  | .inline x => .inline x

theorem step_settle (s : Emphasis.Stack) (p : Piece) :
    Emphasis.step s (settle p) = Emphasis.step s p := by
  cases p with
  | inline x => rfl
  | bracket b => rfl
  | run r =>
    rw [settle]
    split
    · rfl
    · next h =>
      simp only [Bool.or_eq_true, not_or, Bool.not_eq_true, beq_eq_false_iff_ne] at h
      obtain ⟨⟨hopens, hcloses⟩, hlength⟩ := h
      simp [Emphasis.step, hopens, hcloses, hlength]

theorem foldl_step_settle (ps : List Piece) (s : Emphasis.Stack) :
    (ps.map settle).foldl Emphasis.step s = ps.foldl Emphasis.step s := by
  simp only [List.foldl_map, step_settle]

theorem resolve_eq_of_settle {ps qs : List Piece} (h : ps.map settle = qs.map settle) :
    Emphasis.resolve ps = Emphasis.resolve qs := by
  rw [Emphasis.resolve, Emphasis.resolve, ← foldl_step_settle ps, h, foldl_step_settle]

def charInline (c : Char) : Inline := if c = '\n' then .softBreak else .text [c]

theorem depthOf_eq_zero {xs : List Inline} (h : ∀ x ∈ xs, x.depth = 0) :
    Inline.depthOf xs = 0 := by
  induction xs with
  | nil => rfl
  | cons x xs ih =>
    rw [List.forall_mem_cons] at h
    rw [Inline.depthOf, h.1, ih h.2]
    rfl

theorem depth_charInline (c : Char) : (charInline c).depth = 0 := by
  unfold charInline
  split <;> rfl

/-- Pieces of plain text, however the text is cut. -/
inductive Spelled : List Char → List Inline → Prop where
  | nil : Spelled [] []
  | text (t : List Char) {s : List Char} {xs : List Inline} (h : Spelled s xs) :
    Spelled (t ++ s) (.text t :: xs)
  | softBreak {s : List Char} {xs : List Inline} (h : Spelled s xs) :
    Spelled ('\n' :: s) (.softBreak :: xs)

theorem spelled_map_charInline (text : List Char) : Spelled text (text.map charInline) := by
  induction text with
  | nil => exact .nil
  | cons c text ih =>
    rw [List.map_cons, charInline]
    split
    · next hc =>
      subst hc
      exact .softBreak ih
    · exact .text [c] ih

theorem Spelled.depthOf_eq {s : List Char} {xs : List Inline} (h : Spelled s xs) :
    Inline.depthOf xs = 0 := by
  induction h with
  | nil => rfl
  | text t _ ih => simp [Inline.depthOf, Inline.depth, ih]
  | softBreak _ ih => simp [Inline.depthOf, Inline.depth, ih]

theorem Spelled.listWithoutAddresses_eq {s : List Char} {xs : List Inline} (h : Spelled s xs) :
    Inline.listWithoutAddresses xs = xs := by
  induction h with
  | nil => rfl
  | text t _ ih | softBreak _ ih => simp [Inline.listWithoutAddresses, Inline.withoutAddresses, ih]

def startsPlain : List Inline → Bool
  | .text _ :: _ => true
  | _ => false

theorem Spelled.foldr_consMerged {s : List Char} {xs : List Inline} (h : Spelled s xs)
    {rest : List Inline} (hrest : startsPlain rest = false) :
    ∃ ys, Spelled s ys ∧ xs.foldr Inline.consMerged rest = ys ++ rest := by
  induction h with
  | nil => exact ⟨[], .nil, rfl⟩
  | text t h ih =>
    obtain ⟨ys, hys, heq⟩ := ih
    rw [List.foldr_cons, heq]
    cases hys with
    | nil =>
      cases t with
      | nil =>
        refine ⟨[], .nil, ?_⟩
        cases rest with
        | nil => rfl
        | cons x rest => cases x <;> rfl
      | cons c t =>
        refine ⟨[.text (c :: t)], .text _ .nil, ?_⟩
        cases rest with
        | nil => rfl
        | cons x rest => cases x <;> first | rfl | cases hrest
    | @text u s xs hs =>
      refine ⟨.text (t ++ u) :: xs, ?_, by simp [Inline.consMerged]⟩
      rw [← List.append_assoc]
      exact .text (t ++ u) hs
    | softBreak hs =>
      cases t with
      | nil => exact ⟨_, .softBreak hs, rfl⟩
      | cons c t => exact ⟨_, .text (c :: t) (.softBreak hs), rfl⟩
  | softBreak h ih =>
    obtain ⟨ys, hys, heq⟩ := ih
    refine ⟨.softBreak :: ys, .softBreak hys, ?_⟩
    rw [List.foldr_cons, heq]
    rfl

theorem Spelled.mergeTexts {s : List Char} {xs : List Inline} (h : Spelled s xs) :
    Spelled s (Inline.mergeTexts xs) := by
  obtain ⟨ys, hys, heq⟩ := h.foldr_consMerged (show startsPlain [] = false from rfl)
  rw [List.append_nil] at heq
  rw [Inline.mergeTexts, heq]
  exact hys

def Style.Read (text : List Char) : Style → List Inline → Prop
  | plain, xs => Spelled text xs
  | strong, xs => ∃ kids, xs = [.strong kids] ∧ Spelled text kids
  | em, xs => ∃ kids, xs = [.emphasis kids] ∧ Spelled text kids
  | emInStrong, xs => ∃ kids, xs = [.strong [.emphasis kids]] ∧ Spelled text kids
  | strongInEm, xs => ∃ kids, xs = [.emphasis [.strong kids]] ∧ Spelled text kids
  | code, xs => xs = [.code text]

section Read

variable {style : Style} {text : List Char} {xs : List Inline}

theorem Style.Read.mergeTexts (h : style.Read text xs) :
    style.Read text (Inline.mergeTexts xs) := by
  cases style with
  | plain => exact Spelled.mergeTexts h
  | strong | em | emInStrong | strongInEm =>
    obtain ⟨kids, rfl, hkids⟩ := h
    exact ⟨kids, rfl, hkids⟩
  | code =>
    obtain rfl := h
    rfl

theorem Style.Read.listWithoutAddresses (h : style.Read text xs) :
    style.Read text (Inline.listWithoutAddresses xs) := by
  cases style with
  | plain => exact (Spelled.listWithoutAddresses_eq h).symm ▸ h
  | strong | em | emInStrong | strongInEm =>
    obtain ⟨kids, rfl, hkids⟩ := h
    refine ⟨kids, ?_, hkids⟩
    simp [Inline.listWithoutAddresses, Inline.withoutAddresses, hkids.listWithoutAddresses_eq]
  | code =>
    obtain rfl := h
    rfl

theorem Style.Read.depthOf_lt (h : style.Read text xs) : Inline.depthOf xs < Inline.maxDepth := by
  cases style with
  | plain =>
    rw [Spelled.depthOf_eq h]
    decide
  | strong | em | emInStrong | strongInEm =>
    obtain ⟨kids, rfl, hkids⟩ := h
    simp [Inline.depthOf, Inline.depth, hkids.depthOf_eq, Inline.maxDepth]
  | code =>
    obtain rfl := h
    simp [Inline.depthOf, Inline.depth, Inline.maxDepth]

end Read

/-- A run of `n` delimiters that opens and one that closes. -/
structure Pair (n : Nat) (opener closer : DelimiterRun) : Prop where
  opens : opener.opens = true
  closes : closer.closes = true
  same_sign : opener.sign = closer.sign
  opener_length : opener.length = n
  closer_length : closer.length = n

/-- The pieces end up as other pieces, and leave nothing open. -/
def Settles (ps : List Piece) (xs : List Inline) : Prop :=
  ∀ base, ps.foldl Emphasis.step ⟨[], base⟩ = ⟨[], xs.reverse ++ base⟩

theorem Settles.append {ps qs : List Piece} {xs ys : List Inline} (h : Settles ps xs)
    (h' : Settles qs ys) : Settles (ps ++ qs) (xs ++ ys) := by
  intro base
  rw [List.foldl_append, h, h', List.reverse_append, List.append_assoc]

theorem Settles.resolve_eq {ps : List Piece} {xs : List Inline} (h : Settles ps xs) :
    Emphasis.resolve ps = Inline.mergeTexts xs := by
  rw [Emphasis.resolve, h []]
  simp [Emphasis.Stack.flatten]

theorem append_append (xs ys : List Inline) (s : Emphasis.Stack) :
    (s.append xs).append ys = s.append (ys ++ xs) := by
  obtain ⟨openers, base⟩ := s
  cases openers <;> simp [Emphasis.Stack.append]

theorem foldl_step_inline (xs : List Inline) (s : Emphasis.Stack) :
    (xs.map Piece.inline).foldl Emphasis.step s = s.append xs.reverse := by
  induction xs generalizing s with
  | nil =>
    obtain ⟨openers, base⟩ := s
    cases openers <;> rfl
  | cons x xs ih =>
    rw [List.map_cons, List.foldl_cons, ih, Emphasis.step, append_append, List.reverse_cons]

theorem step_opener {n : Nat} {o c : DelimiterRun} (h : Pair n o c) (hn : n ≠ 0)
    (base : List Inline) :
    Emphasis.step ⟨[], base⟩ (.run o) = ⟨[⟨o, n, []⟩], base⟩ := by
  have hclose : ∀ fuel left, Emphasis.closeRun o fuel left ⟨[], base⟩ = (left, ⟨[], base⟩) := by
    intro fuel left
    cases fuel <;> rfl
  simp [Emphasis.step, hclose, h.opens, h.opener_length, hn]

theorem opensFor_of_pair {n : Nat} {o c : DelimiterRun} (h : Pair n o c) :
    o.opensFor c = true := by
  have hlengths : ((n + n) % 3 == 0 && n % 3 != 0) = false := by
    rw [Bool.and_eq_false_iff]
    by_cases hn : n % 3 = 0
    · exact .inr (by simp [hn])
    · exact .inl (by simp; omega)
  simp [DelimiterRun.opensFor, h.same_sign, h.opener_length, h.closer_length, Bool.and_assoc,
    hlengths]

section CloseRun

variable {o c : DelimiterRun} {content : List Inline} (base : List Inline) (fuel : Nat)

theorem closeRun_one (hopens : o.opensFor c = true)
    (hdepth : Inline.depthOf content < Inline.maxDepth) :
    Emphasis.closeRun c (fuel + 1) 1 ⟨[⟨o, 1, content⟩], base⟩ =
      (0, ⟨[], .emphasis (Inline.mergeTexts content.reverse) :: base⟩) := by
  simp [Emphasis.closeRun, hopens, Emphasis.Stack.flatten, Nat.not_le.mpr hdepth,
    Emphasis.Stack.append]

theorem closeRun_two (hopens : o.opensFor c = true)
    (hdepth : Inline.depthOf content < Inline.maxDepth) :
    Emphasis.closeRun c (fuel + 1) 2 ⟨[⟨o, 2, content⟩], base⟩ =
      (0, ⟨[], .strong (Inline.mergeTexts content.reverse) :: base⟩) := by
  simp [Emphasis.closeRun, hopens, Emphasis.Stack.flatten, Nat.not_le.mpr hdepth,
    Emphasis.Stack.append]

theorem closeRun_three (hopens : o.opensFor c = true)
    (hdepth : Inline.depthOf content < Inline.maxDepth) :
    Emphasis.closeRun c (fuel + 1) 3 ⟨[⟨o, 3, content⟩], base⟩ =
      Emphasis.closeRun c fuel 1
        ⟨[⟨o, 1, [.strong (Inline.mergeTexts content.reverse)]⟩], base⟩ := by
  simp [Emphasis.closeRun, hopens, Emphasis.Stack.flatten, Nat.not_le.mpr hdepth]

end CloseRun

theorem step_closer {c : DelimiterRun} {s s' : Emphasis.Stack} (hcloses : c.closes = true)
    (h : Emphasis.closeRun c c.length c.length s = (0, s')) :
    Emphasis.step s (.run c) = s' := by
  simp [Emphasis.step, hcloses, h]

theorem settles_inline (xs : List Inline) : Settles (xs.map .inline) xs := by
  intro base
  rw [foldl_step_inline]
  rfl

/-- The whole of the delimiters is used up: of three the inner two make bold text and the outer
one italic text of it. -/
theorem settles_pair {style : Style} {o c : DelimiterRun} (h : Pair style.sign.length o c)
    (hstyle : style = .strong ∨ style = .em ∨ style = .strongInEm) (text : List Char) :
    ∃ xs, style.Read text xs ∧
      Settles (.run o :: ((text.map charInline).map .inline ++ [.run c])) xs := by
  have hspelled := spelled_map_charInline text
  have hopens := opensFor_of_pair h
  have hdepth : Inline.depthOf (text.map charInline).reverse < Inline.maxDepth := by
    rw [depthOf_eq_zero (by simp [depth_charInline])]
    decide
  have hne : style.sign.length ≠ 0 := by
    rcases hstyle with rfl | rfl | rfl <;> decide
  have hfold : ∀ base s', Emphasis.closeRun c c.length c.length
      ⟨[⟨o, style.sign.length, (text.map charInline).reverse⟩], base⟩ = (0, s') →
      (Piece.run o :: ((text.map charInline).map .inline ++ [.run c])).foldl Emphasis.step
        ⟨[], base⟩ = s' := by
    intro base s' hclose
    have hopen : Emphasis.Stack.append (text.map charInline).reverse
        ⟨[⟨o, style.sign.length, []⟩], base⟩ =
        ⟨[⟨o, style.sign.length, (text.map charInline).reverse⟩], base⟩ := by
      simp [Emphasis.Stack.append]
    rw [List.foldl_cons, step_opener h hne, List.foldl_append, foldl_step_inline, hopen,
      List.foldl_cons, List.foldl_nil]
    exact step_closer h.closes hclose
  rw [h.closer_length] at hfold
  rcases hstyle with rfl | rfl | rfl
  · refine ⟨_, ⟨_, rfl, hspelled.mergeTexts⟩, fun base => hfold base _ ?_⟩
    have hclose := closeRun_two base 1 hopens hdepth
    rw [List.reverse_reverse] at hclose
    exact hclose
  · refine ⟨_, ⟨_, rfl, hspelled.mergeTexts⟩, fun base => hfold base _ ?_⟩
    have hclose := closeRun_one base 0 hopens hdepth
    rw [List.reverse_reverse] at hclose
    exact hclose
  · refine ⟨_, ⟨_, rfl, hspelled.mergeTexts⟩, fun base => hfold base _ ?_⟩
    have hfirst := closeRun_three base 2 hopens hdepth
    rw [List.reverse_reverse] at hfirst
    have hstrong : Inline.depthOf [.strong (Inline.mergeTexts (text.map charInline))] <
        Inline.maxDepth := by
      simp [Inline.depthOf, Inline.depth, hspelled.mergeTexts.depthOf_eq, Inline.maxDepth]
    exact hfirst.trans (closeRun_one base 1 hopens hstrong)

end AdfMarkdown.Prose
