import AdfMarkdown.Proofs.Prose.Pairing
import AdfMarkdown.Proofs.Trimming

/-! # Scanning a character

What the scan of a line of text does with a character that stands for itself: it adds a piece that
settles as the character. Brackets of plain text stay open until it is known that they open nothing,
and so the pieces are compared as they settle.
-/

namespace AdfMarkdown.Prose

open Markdown

variable {ctx : InlineContext} {st st' st'' : Scan} {s s' s'' : List Char}

/-- The scan gets from one state and text to another, with fuel to spare. -/
def Goes (ctx : InlineContext) (st : Scan) (s : List Char) (st' : Scan) (rest : List Char) : Prop :=
  ∀ fuel, s.length < fuel →
    ∃ fuel', rest.length < fuel' ∧ Scan.run ctx fuel st s = Scan.run ctx fuel' st' rest

theorem Goes.refl (ctx : InlineContext) (st : Scan) (s : List Char) : Goes ctx st s st s :=
  fun fuel hfuel => ⟨fuel, hfuel, rfl⟩

theorem Goes.trans (h : Goes ctx st s st' s') (h' : Goes ctx st' s' st'' s'') :
    Goes ctx st s st'' s'' := by
  intro fuel hfuel
  obtain ⟨fuel', hfuel', heq⟩ := h fuel hfuel
  obtain ⟨fuel'', hfuel'', heq'⟩ := h' fuel' hfuel'
  exact ⟨fuel'', hfuel'', heq.trans heq'⟩

theorem Goes.of_step {c : Char} {n : Nat} (h : ∀ inside, Scan.step ctx inside st c s = (st', n)) :
    Goes ctx st (c :: s) st' (s.drop n) := by
  intro fuel hfuel
  obtain ⟨k, rfl⟩ : ∃ k, fuel = k + 1 := ⟨fuel - 1, by rw [List.length_cons] at hfuel; omega⟩
  refine ⟨k, ?_, ?_⟩
  · rw [List.length_drop]
    rw [List.length_cons] at hfuel
    omega
  · rw [Scan.run]
    simp only [h]

theorem Goes.run_eq (h : Goes ctx st s st' []) : Scan.run ctx (s.length + 1) st s = st' := by
  obtain ⟨fuel, -, heq⟩ := h (s.length + 1) (Nat.lt_succ_self _)
  rw [heq]
  cases fuel <;> rfl

def isBracket : Piece → Bool
  | .bracket _ => true
  | _ => false

/-- What comes next is not taken for the end of the line or an address. -/
def Clear (s : List Char) : Prop :=
  (∀ t, s ≠ '\\' :: '\n' :: t) ∧ ∀ bracketed, Address.bare? bracketed s = none

theorem following_of_clear (h : Clear s) (ctx : InlineContext) (st : Scan) :
    ctx.following st s = next s := by
  obtain ⟨hline, haddress⟩ := h
  have hnone : ctx.bareAddress? st s = none := by
    rw [InlineContext.bareAddress?, haddress]
    exact ite_self none
  unfold InlineContext.following
  split
  · rfl
  · exact absurd rfl (hline _)
  · rw [hnone]
    simp [next]

theorem clear_cons {c : Char} (hc : c ≠ 'h') (hc' : c ≠ '\\') (s : List Char) : Clear (c :: s) := by
  constructor
  · rintro t heq
    exact hc' (List.cons.inj heq).1
  · intro bracketed
    unfold Address.bare?
    split
    · next heq => exact absurd (List.cons.inj heq).1 hc
    · next heq => exact absurd (List.cons.inj heq).1 hc
    · rfl

theorem clear_of_isLiteral {before c : Char} (h : isLiteral before c s = true) :
    Clear (c :: s) := by
  by_cases hc : c = 'h'
  · subst hc
    simp only [isLiteral, Bool.not_eq_true', Bool.or_eq_false_iff] at h
    constructor
    · rintro t heq
      cases heq
    · intro bracketed
      unfold Address.bare?
      split
      · next heq =>
        rw [(List.cons.inj heq).2] at h
        cases h.1
      · next heq =>
        rw [(List.cons.inj heq).2] at h
        cases h.2
      · rfl
  by_cases hc' : c = '\\'
  · subst hc'
    constructor
    · rintro t heq
      rw [(List.cons.inj heq).2] at h
      cases h
    · intro bracketed
      rfl
  · exact clear_cons hc hc' s

/-- One more piece that settles as the character. -/
structure Adds (st st' : Scan) (c : Char) : Prop where
  outside : st'.inAnchor = false
  before : st'.before = c
  settled : st'.pieces.map settle = .inline (charInline c) :: st.pieces.map settle
  kept : c ≠ '[' → c ≠ ']' → ∃ p, st'.pieces = p :: st.pieces ∧ isBracket p = false

theorem adds_push (hst : st.inAnchor = false) {c : Char} (hc : c ≠ '\n') :
    Adds st (st.push (.text [c])) c where
  outside := hst
  before := rfl
  settled := by simp [Scan.push, settle, charInline, hc]
  kept := fun _ _ => ⟨_, rfl, rfl⟩

section Literal

theorem not_isAlphanum_of_isSpace {c : Char} (h : Text.isSpace c = true) :
    c.isAlphanum = false := by
  rw [Bool.eq_false_iff]
  intro hc
  simp only [Text.isSpace, Char.toNat, Bool.or_eq_true, Bool.and_eq_true, decide_eq_true_eq,
    beq_iff_eq] at h
  have hc : (decide ('A'.val ≤ c.val ∧ c.val ≤ 'Z'.val) ||
      (decide ('a'.val ≤ c.val) && decide (c.val ≤ 'z'.val)) ||
        (decide ('0'.val ≤ c.val) && decide (c.val ≤ '9'.val))) = true := hc
  simp only [Bool.or_eq_true, Bool.and_eq_true, decide_eq_true_eq, UInt32.le_iff_toNat_le] at hc
  have hfirst : 'A'.val.toNat = 65 ∧ 'a'.val.toNat = 97 ∧ '0'.val.toNat = 48 := by decide
  have hlast : 'Z'.val.toNat = 90 ∧ 'z'.val.toNat = 122 ∧ '9'.val.toNat = 57 := by decide
  omega

theorem openAngle_literal (h : Text.isSpace (next s) = true) :
    st.openAngle s = (st.push (.text ['<']), 0) := by
  cases s with
  | nil => rfl
  | cons d s =>
    have hd : Text.isSpace d = true := h
    have halnum := not_isAlphanum_of_isSpace hd
    have halpha : d.isAlpha = false := by
      have halnum : (d.isAlpha || d.isDigit) = false := halnum
      exact (Bool.or_eq_false_iff.mp halnum).1
    have hne : ∀ e, Text.isSpace e = false → d ≠ e := by
      rintro e he rfl
      exact absurd (hd.symm.trans he) (by decide)
    have hmail : Address.mail? (d :: s) = none := by
      have hsigns : ".!#$%&'*+/=?^_\x60\x7b|\x7d~-".toList.all (fun e => !Text.isSpace e) =
          true := by
        decide
      have hchar : Address.isMailChar d = false := by
        rw [Address.isMailChar, halnum, Bool.false_or, List.contains_eq_mem,
          decide_eq_false_iff_not]
        intro hmem
        have hnot := List.all_eq_true.mp hsigns d hmem
        rw [hd] at hnot
        cases hnot
      have huser : (d :: s).takeWhile Address.isMailChar = [] :=
        List.takeWhile_cons_of_neg (by simp [hchar])
      have hat := hne '@' (by decide)
      simp [Address.mail?, huser, hat]
    have hangled : Address.angled? (d :: s) = none := by
      simp [Address.angled?, Address.web?, halpha, hmail]
    have hhtml : Html.afterInline? ('<' :: d :: s) = none := by
      have h1 := hne '!' (by decide)
      have h2 := hne '?' (by decide)
      have h3 := hne '/' (by decide)
      simp [Html.afterInline?, h1, h2, h3, Html.afterOpenTag?, Html.afterName?, Html.isLetter,
        halpha]
    rw [Scan.openAngle, hangled]
    simp only [hhtml]

theorem target?_eq_none (hctx : ctx.definitions = []) (h : next s ≠ '(') (label : List Char) :
    Scan.target? ctx label s = none := by
  have hlookup : ∀ key, Definition.lookup key ctx.definitions = none := by
    intro key
    rw [hctx]
    rfl
  have hreference : ∀ t, s ≠ '(' :: t := by
    rintro t rfl
    exact h rfl
  unfold Scan.target?
  simp only [hlookup, Option.map_none]
  split
  · split <;> rfl
  · rfl

theorem splitAtBracket_eq {ps inside outside : List Piece} {b : Bracket}
    (h : Scan.splitAtBracket ps = some (inside, b, outside)) :
    ps = inside ++ .bracket b :: outside := by
  induction ps generalizing inside with
  | nil => cases h
  | cons p ps ih =>
    cases p with
    | bracket b' =>
      cases h
      rfl
    | inline x | run r =>
      obtain ⟨⟨inside', rest⟩, hsplit, heq⟩ := Option.map_eq_some_iff.mp h
      cases heq
      rw [ih hsplit]
      rfl

/-- A bracket that closes no link is text, as the one that opened it then is. -/
theorem closeBracket_literal (hctx : ctx.definitions = []) (hst : st.inAnchor = false)
    (h : next s ≠ '(') : ∃ st', Scan.closeBracket ctx st s = (st', 0) ∧ Adds st st' ']' := by
  unfold Scan.closeBracket
  split
  · exact ⟨_, rfl, adds_push hst (by decide)⟩
  · next inside b outside hsplit =>
    have hpieces := splitAtBracket_eq hsplit
    refine ⟨⟨.inline (.text [']']) :: (inside ++
      .inline (.text (if b.image then ['!', '['] else ['['])) :: outside), st.inAnchor⟩, ?_, ?_⟩
    · simp only [target?_eq_none hctx h]
      exact ite_self _
    · refine ⟨hst, rfl, ?_, fun _ h => absurd rfl h⟩
      simp [hpieces, settle, charInline]

theorem lineBreak?_blank (h : (s.dropWhile (· == ' ')).head? ≠ some '\n') :
    Scan.lineBreak? (' ' :: s) = none := by
  have hdrop : (' ' :: s).drop ((' ' :: s).takeWhile (· == ' ')).length =
      s.dropWhile (· == ' ') := by
    rw [Text.drop_length_takeWhile]
    rfl
  unfold Scan.lineBreak?
  dsimp only
  rw [hdrop]
  split
  · next rest heq =>
    rw [heq] at h
    exact absurd rfl h
  · rfl

theorem lineBreak?_feed (h : Text.isSpace (next s) = false) :
    Scan.lineBreak? ('\n' :: s) = some (1, 0) := by
  have hspace : s.takeWhile Text.isSpace = [] := by
    cases s with
    | nil => rfl
    | cons d s => exact List.takeWhile_cons_of_neg (by simpa [next] using h)
  simp [Scan.lineBreak?, hspace]

@[simp] theorem sign_between (before sign : Char) (n : Nat) (after : Char) :
    (DelimiterRun.between before sign n after).sign = sign := by
  unfold DelimiterRun.between
  dsimp only
  split <;> rfl

@[simp] theorem length_between (before sign : Char) (n : Nat) (after : Char) :
    (DelimiterRun.between before sign n after).length = n := by
  unfold DelimiterRun.between
  dsimp only
  split <;> rfl

/-- A single delimiter that neither opens nor closes settles as itself. -/
theorem delimiter_literal (hst : st.inAnchor = false) {c : Char} (hc : c = '*' ∨ c = '_')
    (h : isLiteral st.before c s = true) (hs : Clear s) :
    ∃ st', Scan.delimiter ctx st c s = (st', 0) ∧ Adds st st' c := by
  have hidle : next s ≠ c ∧ (DelimiterRun.between st.before c 1 (next s)).opens = false ∧
      (DelimiterRun.between st.before c 1 (next s)).closes = false := by
    rcases hc with rfl | rfl <;>
      simpa [isLiteral, and_assoc] using h
  obtain ⟨hnext, hopens, hcloses⟩ := hidle
  have hsigns : s.takeWhile (· == c) = [] := by
    cases s with
    | nil => rfl
    | cons d s => exact List.takeWhile_cons_of_neg (by simpa [next] using hnext)
  refine ⟨⟨.run (.between st.before c 1 (next s)) :: st.pieces, st.inAnchor⟩, ?_, hst, ?_, ?_, ?_⟩
  · simp [Scan.delimiter, hsigns, following_of_clear hs]
  · exact sign_between _ _ _ _
  · have hfeed : c ≠ '\n' := by rcases hc with rfl | rfl <;> decide
    simp [settle, hopens, hcloses, Emphasis.signs, charInline, hfeed]
  · exact fun _ _ => ⟨_, rfl, rfl⟩

end Literal

def openBracket (st : Scan) (s : List Char) : Scan :=
  ⟨.bracket ⟨false, true, s⟩ :: st.pieces, st.inAnchor⟩

theorem step_openBracket (hst : st.inAnchor = false) (s : List Char)
    (inside : List Char → List Inline) :
    Scan.step ctx inside st '[' s = (openBracket st s, 0) := by
  simp [Scan.step, hst, openBracket]

theorem step_literal (hctx : ctx.definitions = []) (hst : st.inAnchor = false) {c : Char}
    (hc : isLiteral st.before c s = true) (hs : Clear s) :
    ∃ st', (∀ inside, Scan.step ctx inside st c s = (st', 0)) ∧ Adds st st' c := by
  have hclear := clear_of_isLiteral hc
  have hliteral := hc
  by_cases hopen : c = '['
  · subst hopen
    exact ⟨openBracket st s, step_openBracket hst s, hst, rfl, rfl, fun h => absurd rfl h⟩
  -- The cases are the characters that `isLiteral` looks at.
  unfold isLiteral at hc
  split at hc
  · refine ⟨_, fun inside => ?_, adds_push hst (by decide)⟩
    change st.escape s = _
    simp only [Bool.and_eq_true, bne_iff_ne, ne_eq, Bool.not_eq_true'] at hc
    unfold Scan.escape
    split
    · exact absurd rfl hc.1
    · next d _ _ =>
      have hpunct : Url.isPunctuation d = false := hc.2
      rw [hpunct]
      rfl
    · exact absurd rfl hc.1
  · cases hc
  · exact ⟨_, fun _ => openAngle_literal hc, adds_push hst (by decide)⟩
  · obtain ⟨st', hstep, hadds⟩ := closeBracket_literal hctx hst (by simpa using hc)
    exact ⟨st', fun _ => hstep, hadds⟩
  · refine ⟨_, fun inside => ?_, adds_push hst (by decide)⟩
    change Scan.tilde ctx inside st s = _
    unfold Scan.tilde
    split
    · cases hc
    · rfl
  · refine ⟨_, fun inside => ?_, adds_push hst (by decide)⟩
    simp only [Scan.step]
    split
    · simp [next] at hc
    · rfl
  · refine ⟨_, fun inside => ?_, adds_push hst (by decide)⟩
    have hnone := lineBreak?_blank (by simpa using hc)
    simp only [Scan.step, hnone]
  · have hbreak := lineBreak?_feed (by simpa using hc)
    refine ⟨st.push .softBreak, fun inside => ?_, ⟨hst, rfl, rfl, fun _ _ => ⟨_, rfl, rfl⟩⟩⟩
    simp [Scan.step, hbreak]
  · refine ⟨_, fun inside => ?_, adds_push hst (by decide)⟩
    have hnone : ctx.bareAddress? st ('h' :: s) = none := by
      rw [InlineContext.bareAddress?, hclear.2]
      exact ite_self none
    simp [Scan.step, hnone]
  · obtain ⟨st', hstep, hadds⟩ := delimiter_literal hst (.inl rfl) hliteral hs
    exact ⟨st', fun _ => hstep, hadds⟩
  · obtain ⟨st', hstep, hadds⟩ := delimiter_literal hst (.inr rfl) hliteral hs
    exact ⟨st', fun _ => hstep, hadds⟩
  · refine ⟨_, fun inside => ?_, adds_push hst ?_⟩
    · unfold Scan.step
      split <;> first | rfl | contradiction
    · assumption

end AdfMarkdown.Prose
