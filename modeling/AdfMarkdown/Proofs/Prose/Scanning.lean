import AdfMarkdown.Proofs.Destinations
import AdfMarkdown.Proofs.Prose.Literal

/-! # Scanning legible runs

The scan of a text that stands for itself, character by character, and from that of a text between
signs, of code, of a link and of runs one after the other.
-/

namespace AdfMarkdown.Prose

open Markdown

variable {ctx : InlineContext} {st st' st'' : Scan} {s s' s'' : List Char}

/-! ## Texts -/

/-- The scan of a text gives pieces that settle as the given ones. -/
structure Scanned (ctx : InlineContext) (st : Scan) (s : List Char) (ps : List Piece) (st' : Scan)
    (rest : List Char) : Prop where
  goes : Goes ctx st s st' rest
  outside : st'.inAnchor = false
  settled : st'.pieces.map settle = (ps.map settle).reverse ++ st.pieces.map settle

theorem Scanned.trans {ps qs : List Piece} (h : Scanned ctx st s ps st' s')
    (h' : Scanned ctx st' s' qs st'' s'') : Scanned ctx st s (ps ++ qs) st'' s'' where
  goes := h.goes.trans h'.goes
  outside := h'.outside
  settled := by
    rw [h'.settled, h.settled, List.map_append, List.reverse_append, List.append_assoc]

/-- The pieces so far stay, and no bracket is open after them. -/
def Keeps (st st' : Scan) : Prop :=
  ∃ new, st'.pieces = new ++ st.pieces ∧ ∀ p ∈ new, isBracket p = false

theorem Keeps.refl (st : Scan) : Keeps st st := ⟨[], rfl, by simp⟩

theorem Keeps.trans (h : Keeps st st') (h' : Keeps st' st'') : Keeps st st'' := by
  obtain ⟨new, heq, hnew⟩ := h
  obtain ⟨new', heq', hnew'⟩ := h'
  refine ⟨new' ++ new, by rw [heq', heq, List.append_assoc], ?_⟩
  intro p hp
  rcases List.mem_append.mp hp with hp | hp
  · exact hnew' p hp
  · exact hnew p hp

theorem Keeps.of_cons {p : Piece} (h : st'.pieces = p :: st.pieces) (hp : isBracket p = false) :
    Keeps st st' := ⟨[p], h, by simpa using hp⟩

theorem clear_of_isVerbatim {before : Char} {text after : List Char}
    (h : isVerbatim before text after = true) (hafter : Clear after) : Clear (text ++ after) := by
  cases text with
  | nil => exact hafter
  | cons c text =>
    rw [isVerbatim, Bool.and_eq_true] at h
    exact clear_of_isLiteral h.1

/-- A text that stands for itself gives its characters. -/
theorem scanned_verbatim (hctx : ctx.definitions = []) {text after : List Char}
    (hst : st.inAnchor = false) (h : isVerbatim st.before text after = true)
    (hafter : Clear after) :
    ∃ st', Scanned ctx st (text ++ after) ((text.map charInline).map .inline) st' after ∧
      st'.before = text.getLast?.getD st.before ∧ ('[' ∉ text → ']' ∉ text → Keeps st st') := by
  induction text generalizing st with
  | nil => exact ⟨st, ⟨.refl ctx st after, hst, rfl⟩, rfl, fun _ _ => .refl st⟩
  | cons c text ih =>
    rw [isVerbatim, Bool.and_eq_true] at h
    obtain ⟨hc, htext⟩ := h
    obtain ⟨st', hstep, hadds⟩ :=
      step_literal hctx hst hc (clear_of_isVerbatim htext hafter)
    rw [← hadds.before] at htext
    obtain ⟨st'', hscanned, hbefore, hkeeps⟩ := ih hadds.outside htext
    have hfirst : Scanned ctx st (c :: (text ++ after)) [.inline (charInline c)] st'
        (text ++ after) :=
      ⟨.of_step hstep, hadds.outside, hadds.settled⟩
    refine ⟨st'', hfirst.trans hscanned, ?_, ?_⟩
    · rw [hbefore, hadds.before, List.getLast?_cons]
      rfl
    · intro hopen hclose
      rw [List.mem_cons, not_or] at hopen hclose
      obtain ⟨p, hp, hbracket⟩ := hadds.kept (Ne.symm hopen.1) (Ne.symm hclose.1)
      exact (Keeps.of_cons hp hbracket).trans (hkeeps hopen.2 hclose.2)

theorem scanned_signs (hst : st.inAnchor = false) (n : Nat) {after : List Char}
    (hnext : after.head? ≠ some '*') (hafter : Clear after) :
    Scanned ctx st (List.replicate (n + 1) '*' ++ after)
      [.run (.between st.before '*' (n + 1) (next after))]
      ⟨.run (.between st.before '*' (n + 1) (next after)) :: st.pieces, st.inAnchor⟩ after := by
  have hnone : after.takeWhile (· == '*') = [] := by
    cases after with
    | nil => rfl
    | cons c after => exact List.takeWhile_cons_of_neg (by simpa using hnext)
  have hsigns : (List.replicate n '*' ++ after).takeWhile (· == '*') = List.replicate n '*' := by
    rw [List.takeWhile_append_of_pos (by simp), hnone, List.append_nil]
  refine ⟨?_, hst, rfl⟩
  have hstep : ∀ inside, Scan.step ctx inside st '*' (List.replicate n '*' ++ after) =
      (⟨.run (.between st.before '*' (n + 1) (next after)) :: st.pieces, st.inAnchor⟩, n) := by
    intro inside
    simp [Scan.step, Scan.delimiter, hsigns, following_of_clear hafter]
  have hgoes := Goes.of_step hstep
  rw [List.drop_left' (List.length_replicate)] at hgoes
  exact hgoes

theorem next_append {text : List Char} (h : text ≠ []) (after : List Char) :
    next (text ++ after) = next text := by
  obtain ⟨c, text, rfl⟩ := List.exists_cons_of_ne_nil h
  rfl

theorem head?_append_of_ne_nil {text : List Char} (h : text ≠ []) (after : List Char) :
    (text ++ after).head? = text.head? := by
  obtain ⟨c, text, rfl⟩ := List.exists_cons_of_ne_nil h
  rfl

/-- A text between asterisks gives a pair of runs around its characters. -/
theorem scanned_emphasis (hctx : ctx.definitions = []) (hst : st.inAnchor = false) {n : Nat}
    {text after : List Char} (hne : text ≠ [])
    (h : isEmphasis st.before (List.replicate (n + 1) '*') text after = true)
    (hafter : Clear after) :
    ∃ st' o c, Pair (n + 1) o c ∧
      Scanned ctx st
        (List.replicate (n + 1) '*' ++ (text ++ (List.replicate (n + 1) '*' ++ after)))
        (.run o :: ((text.map charInline).map .inline ++ [.run c])) st' after ∧
      st'.before = '*' ∧ ('[' ∉ text → ']' ∉ text → Keeps st st') := by
  simp only [isEmphasis, Bool.and_eq_true, bne_iff_ne, List.length_replicate] at h
  obtain ⟨⟨⟨⟨hfirst, hnext⟩, hopens⟩, hcloses⟩, hverbatim⟩ := h
  have hclosing : Clear (List.replicate (n + 1) '*' ++ after) :=
    clear_cons (by decide) (by decide) _
  have htext := clear_of_isVerbatim hverbatim hclosing
  have hopening : Scanned ctx st _ _ _ _ := scanned_signs hst n
    (by rw [head?_append_of_ne_nil hne]; exact hfirst) htext
  rw [next_append hne] at hopening
  have hsign : Scan.before ⟨.run (.between st.before '*' (n + 1) (next text)) :: st.pieces,
      st.inAnchor⟩ = '*' := sign_between _ _ _ _
  obtain ⟨st', hinside, hbefore, hkeeps⟩ :=
    scanned_verbatim hctx hopening.outside (hsign.symm ▸ hverbatim) hclosing
  rw [hsign] at hbefore
  have hclosed : Scanned ctx st' _ _ _ _ := scanned_signs hinside.outside n hnext hafter
  rw [hbefore] at hclosed
  refine ⟨_, _, _, ⟨hopens, hcloses, ?_, ?_, ?_⟩, hopening.trans (hinside.trans hclosed), ?_, ?_⟩
  · rw [sign_between, sign_between]
  · exact length_between _ _ _ _
  · exact length_between _ _ _ _
  · exact sign_between _ _ _ _
  · intro hopen hclose
    exact (Keeps.of_cons rfl rfl).trans ((hkeeps hopen hclose).trans (Keeps.of_cons rfl rfl))

/-! ## Code -/

theorem codeSpan_length? {text after : List Char} (h : '\x60' ∉ text)
    (hafter : after.head? ≠ some '\x60') (pos : Nat) :
    CodeSpan.length? 1 0 pos (text ++ '\x60' :: after) = some (pos + text.length) := by
  induction text generalizing pos with
  | nil =>
    cases after with
    | nil => simp [CodeSpan.length?]
    | cons c after =>
      have hc : c ≠ '\x60' := by simpa using hafter
      simp [CodeSpan.length?, hc]
  | cons c text ih =>
    rw [List.mem_cons, not_or] at h
    have hc := Ne.symm h.1
    simp [CodeSpan.length?, hc, ih h.2]
    omega

theorem scanned_code (ctx : InlineContext) (hst : st.inAnchor = false) {text after : List Char}
    (hne : text ≠ []) (h : Style.code.isLegible st.before text after = true) :
    ∃ st', Scanned ctx st ('\x60' :: (text ++ '\x60' :: after)) [.inline (.code text)] st' after ∧
      st'.before = '\ufffc' ∧ Keeps st st' := by
  simp only [Style.isLegible, Bool.and_eq_true, Bool.not_eq_true', List.contains_eq_mem,
    decide_eq_false_iff_not, beq_iff_eq, bne_iff_ne] at h
  obtain ⟨⟨htext, hcontent⟩, hnext⟩ := h
  have hsigns : (text ++ '\x60' :: after).takeWhile (· == '\x60') = [] := by
    obtain ⟨c, text, rfl⟩ := List.exists_cons_of_ne_nil hne
    rw [List.mem_cons, not_or] at htext
    exact List.takeWhile_cons_of_neg (by simpa using Ne.symm htext.1)
  have hstep : ∀ inside, Scan.step ctx inside st '\x60' (text ++ '\x60' :: after) =
      (st.push (.code text), text.length + 1) := by
    intro inside
    simp [Scan.step, Scan.backtick, hsigns, codeSpan_length? htext hnext, hcontent]
  have hdrop : (text ++ '\x60' :: after).drop (text.length + 1) = after := by
    rw [List.append_cons]
    exact List.drop_left' (by simp)
  have hgoes := Goes.of_step hstep
  rw [hdrop] at hgoes
  exact ⟨_, ⟨hgoes, hst, rfl⟩, rfl, .of_cons rfl rfl⟩

/-- The text between the signs of a style gives pieces that end up as it was meant. -/
def StyleScanned (ctx : InlineContext) (st : Scan) (style : Style) (text after : List Char) :
    Prop :=
  ∃ st' ps xs,
    Scanned ctx st (style.sign.toList ++ (text ++ (style.sign.toList ++ after))) ps st' after ∧
    Settles ps xs ∧ style.Read text xs ∧ st'.before = style.exit text ∧
    (style = .code ∨ '[' ∉ text ∧ ']' ∉ text → Keeps st st')

theorem styleScanned_emphasis (hctx : ctx.definitions = []) (hst : st.inAnchor = false)
    {style : Style} (hstyle : style = .strong ∨ style = .em ∨ style = .strongInEm) {n : Nat}
    (hsign : style.sign.toList = List.replicate (n + 1) '*') {text after : List Char}
    (hne : text ≠ []) (h : isEmphasis st.before style.sign.toList text after = true)
    (hafter : Clear after) : StyleScanned ctx st style text after := by
  rw [hsign] at h
  obtain ⟨st', o, c, hpair, hscanned, hbefore, hkeeps⟩ := scanned_emphasis hctx hst hne h hafter
  have hlength : style.sign.length = n + 1 := by
    rw [← String.length_toList, hsign, List.length_replicate]
  obtain ⟨xs, hread, hsettles⟩ := settles_pair (hlength ▸ hpair) hstyle text
  rw [StyleScanned, hsign]
  refine ⟨st', _, xs, hscanned, hsettles, hread, ?_, ?_⟩
  · rcases hstyle with rfl | rfl | rfl <;> exact hbefore
  · rintro (rfl | ⟨hopen, hclose⟩)
    · rcases hstyle with h | h | h <;> cases h
    · exact hkeeps hopen hclose

theorem scanned_style (hctx : ctx.definitions = []) (hst : st.inAnchor = false) {style : Style}
    {text after : List Char} (hne : text ≠ [])
    (h : style.isLegible st.before text after = true) (hafter : Clear after) :
    StyleScanned ctx st style text after := by
  cases style with
  | plain =>
    obtain ⟨st', hscanned, hbefore, hkeeps⟩ := scanned_verbatim hctx hst h hafter
    refine ⟨st', _, _, hscanned, settles_inline _, spelled_map_charInline text, ?_, ?_⟩
    · obtain ⟨c, hc⟩ := Option.ne_none_iff_exists'.mp (mt List.getLast?_eq_none_iff.mp hne)
      rw [hbefore, Style.exit, hc]
      rfl
    · rintro (h | ⟨hopen, hclose⟩)
      · cases h
      · exact hkeeps hopen hclose
  | code =>
    obtain ⟨st', hscanned, hbefore, hkeeps⟩ := scanned_code ctx hst hne h
    exact ⟨st', _, _, hscanned, settles_inline [.code text], rfl, hbefore, fun _ => hkeeps⟩
  | emInStrong => cases h
  | strong => exact styleScanned_emphasis hctx hst (.inl rfl) (n := 1) rfl hne h hafter
  | em => exact styleScanned_emphasis hctx hst (.inr (.inl rfl)) (n := 0) rfl hne h hafter
  | strongInEm => exact styleScanned_emphasis hctx hst (.inr (.inr rfl)) (n := 2) rfl hne h hafter

/-! ## Links -/

theorem isDestinationChar_cases {c : Char} (h : isDestinationChar c = true) :
    Text.isSpace c = false ∧ 32 ≤ c.toNat ∧ c.toNat ≠ 127 ∧ ∀ e ∈ "()<>[]\\".toList, c ≠ e := by
  simp only [isDestinationChar, Bool.not_eq_true', Bool.or_eq_false_iff, decide_eq_false_iff_not,
    Nat.not_lt, beq_eq_false_iff_ne, List.contains_eq_mem] at h
  obtain ⟨⟨⟨hspace, hcontrol⟩, hdelete⟩, hsigns⟩ := h
  refine ⟨hspace, hcontrol, hdelete, ?_⟩
  rintro e he rfl
  exact hsigns he

theorem not_mem_of_isDestinationChar {d : List Char} (h : d.all isDestinationChar = true)
    {c : Char} (hc : c ∈ "()<>[]\\".toList) : c ∉ d := by
  intro hmem
  exact (isDestinationChar_cases (List.all_eq_true.mp h c hmem)).2.2.2 c hc rfl

theorem isPlain_of_isDestinationChar {c : Char} (h : isDestinationChar c = true) :
    LinkDestination.isPlain c = true := by
  obtain ⟨hspace, -, -, hsigns⟩ := isDestinationChar_cases h
  simp [LinkDestination.isPlain, hspace, hsigns '(' (by decide), hsigns ')' (by decide),
    hsigns '\\' (by decide)]

section Link

variable {d after : List Char}

theorem bare?_append (h : d.all isDestinationChar = true) :
    Link.bare? 0 (d ++ ')' :: after) = some (d, ')' :: after) := by
  induction d with
  | nil =>
    rw [List.nil_append, Link.bare?.eq_def]
    rfl
  | cons c d ih =>
    rw [List.all_cons, Bool.and_eq_true] at h
    obtain ⟨hspace, hcontrol, hdelete, hsigns⟩ := isDestinationChar_cases h.1
    have h1 := hsigns '\\' (by decide)
    have h2 := hsigns '(' (by decide)
    have h3 := hsigns ')' (by decide)
    have hends : Link.endsDestination c = false := by
      rw [Bool.eq_false_iff]
      intro hends
      simp only [Link.endsDestination, Bool.or_eq_true, beq_iff_eq] at hends
      rcases hends with ((((rfl | rfl) | rfl) | rfl) | rfl) | rfl <;>
        exact absurd hspace (by decide)
    rw [List.cons_append, Link.bare?.eq_def]
    simp [h1, h2, h3, hends, Nat.not_lt.mpr hcontrol, hdelete, ih h.2]

theorem inlineTarget?_append (hne : d ≠ []) (h : d.all isDestinationChar = true) :
    Link.inlineTarget? (d ++ ')' :: after) =
      some (⟨String.ofList (Url.encode d), none⟩, after) := by
  have hbackslash : '\\' ∉ d := not_mem_of_isDestinationChar h (by decide)
  have hskip : Link.skipSpacing (d ++ ')' :: after) = d ++ ')' :: after := by
    obtain ⟨c, d, rfl⟩ := List.exists_cons_of_ne_nil hne
    obtain ⟨hblank, hfeed⟩ := LinkDestination.not_isBlank_of_isPlain
      (isPlain_of_isDestinationChar (List.all_eq_true.mp h c List.mem_cons_self))
    rw [Link.skipSpacing, List.cons_append, List.dropWhile_cons_of_neg (by simp [hblank])]
    split
    · next heq => exact absurd (List.cons.inj heq).1 hfeed
    · rfl
  have hdestination : Link.destination? (d ++ ')' :: after) = some (d, ')' :: after) := by
    rw [Link.destination?.eq_def]
    split
    · next heq =>
      obtain ⟨c, d, rfl⟩ := List.exists_cons_of_ne_nil hne
      obtain rfl := (List.cons.inj heq).1
      exact absurd List.mem_cons_self (not_mem_of_isDestinationChar h (by decide))
    · exact bare?_append h
  have htarget : Link.target d [] = ⟨String.ofList (Url.encode d), none⟩ := by
    rw [Link.target, LinkDestination.unescape_eq_self hbackslash]
    rfl
  simp [Link.inlineTarget?, hskip, hdestination, Link.isGap, htarget]

theorem splitAtBracket_append {new : List Piece} (h : ∀ p ∈ new, isBracket p = false) (b : Bracket)
    (outside : List Piece) :
    Scan.splitAtBracket (new ++ .bracket b :: outside) = some (new, b, outside) := by
  induction new with
  | nil => rfl
  | cons p new ih =>
    rw [List.forall_mem_cons] at h
    cases p with
    | bracket b => cases h.1
    | inline x | run r => simp [Scan.splitAtBracket, ih h.2]

theorem settle_deactivate (p : Piece) : settle (Scan.deactivate p) = settle p := by
  cases p with
  | bracket b =>
    rw [Scan.deactivate, settle, settle]
    split <;> rfl
  | inline x | run r => rfl

/-- A closing bracket in front of a destination makes a link of what stands after the last open
bracket. -/
theorem closeBracket_link {new outside : List Piece} {b : Bracket} {children : List Inline}
    (hpieces : st.pieces = new ++ .bracket b :: outside) (hnew : ∀ p ∈ new, isBracket p = false)
    (himage : b.image = false) (hactive : b.active = true)
    (hchildren : Emphasis.resolve new.reverse = children)
    (hdepth : Inline.depthOf children < Inline.maxDepth) (hne : d ≠ [])
    (h : d.all isDestinationChar = true) :
    Scan.closeBracket ctx st ('(' :: (d ++ ')' :: after)) =
      (⟨.inline (.link ⟨String.ofList (Url.encode d), none⟩ false
          (Inline.mergeTexts (Inline.listWithoutAddresses children))) ::
        outside.map Scan.deactivate, st.inAnchor⟩, d.length + 2) := by
  unfold Scan.closeBracket
  rw [hpieces, splitAtBracket_append hnew]
  simp [Scan.target?, inlineTarget?_append hne h, himage, hactive, hchildren,
    Nat.not_le.mpr hdepth]
  omega

end Link

theorem scanned_brackets (hst : st.inAnchor = false) {inside after : List Char} {href : String}
    {ps : List Piece} {xs : List Inline}
    (hinside : Scanned ctx (openBracket st (inside ++ (linkEnd href ++ after)))
      (inside ++ (linkEnd href ++ after)) ps st' (linkEnd href ++ after))
    (hkeeps : Keeps (openBracket st (inside ++ (linkEnd href ++ after))) st')
    (hsettles : Settles ps xs) (hdepth : Inline.depthOf (Inline.mergeTexts xs) < Inline.maxDepth)
    (hne : href ≠ "") (hhref : href.toList.all isDestinationChar = true) :
    ∃ st'', Scanned ctx st ('[' :: (inside ++ (linkEnd href ++ after)))
      [.inline (.link ⟨Url.encodeText href, none⟩ false
        (Inline.mergeTexts (Inline.listWithoutAddresses (Inline.mergeTexts xs))))] st'' after ∧
      st''.before = '\ufffc' := by
  obtain ⟨new, hpieces, hnew⟩ := hkeeps
  have hchildren : Emphasis.resolve new.reverse = Inline.mergeTexts xs := by
    rw [← hsettles.resolve_eq]
    apply resolve_eq_of_settle
    have hsettled := hinside.settled
    rw [hpieces, List.map_append, List.append_cancel_right_eq] at hsettled
    rw [List.map_reverse, hsettled, List.reverse_reverse]
  have hopen : ∀ inner, Scan.step ctx inner st '[' (inside ++ (linkEnd href ++ after)) = _ :=
    step_openBracket hst _
  have hclose : Scan.closeBracket ctx st' ('(' :: (href.toList ++ ')' :: after)) = _ :=
    closeBracket_link hpieces hnew rfl rfl hchildren hdepth (by simpa using hne) hhref
  have hend : linkEnd href ++ after = ']' :: '(' :: (href.toList ++ ')' :: after) := by
    simp [linkEnd]
  have hdrop : ('(' :: (href.toList ++ ')' :: after)).drop (href.toList.length + 2) = after := by
    rw [List.append_cons, ← List.cons_append]
    exact List.drop_left' (by simp)
  have hgoes := Goes.of_step (c := ']') (s := '(' :: (href.toList ++ ')' :: after))
    (fun _ => hclose)
  rw [hdrop, ← hend] at hgoes
  have houtside : (st.pieces.map Scan.deactivate).map settle = st.pieces.map settle := by
    rw [List.map_map]
    exact List.map_congr_left fun p _ => settle_deactivate p
  refine ⟨_, ⟨(Goes.of_step hopen).trans (hinside.goes.trans hgoes), hinside.outside, ?_⟩, rfl⟩
  rw [List.map_cons, houtside]
  rfl

theorem barePath?_bracket {s : List Char} (h : Address.barePath? true s = some s)
    (rest : List Char) : Address.barePath? true (s ++ ']' :: rest) = some s := by
  unfold Address.barePath? at h ⊢
  dsimp only at h ⊢
  split_ifs at h with hshort
  have hpath := Option.some.inj h
  have hall : s.takeWhile (fun c => !(Text.isSpace c || c == '<' || (true && c == ']'))) = s := by
    apply List.IsPrefix.eq_of_length (List.takeWhile_prefix _)
    apply Nat.le_antisymm (List.takeWhile_prefix _).length_le
    conv_lhs => rw [← hpath]
    exact Text.length_trimRight_le _ _
  have hrun : (s ++ ']' :: rest).takeWhile
      (fun c => !(Text.isSpace c || c == '<' || (true && c == ']'))) = s := by
    rw [List.takeWhile_append_of_pos (List.takeWhile_eq_self_iff.mp hall),
      List.takeWhile_cons_of_neg (by decide), List.append_nil]
  rw [hall] at hshort hpath
  rw [hrun, if_neg hshort, hpath]

theorem bare?_bracket {text : List Char} (h : Address.bare? true text = some text)
    (rest : List Char) : Address.bare? true (text ++ ']' :: rest) = some text := by
  unfold Address.bare? at h
  split at h
  · obtain ⟨path, hpath, heq⟩ := Option.map_eq_some_iff.mp h
    obtain rfl := List.append_cancel_left heq
    exact Option.map_eq_some_iff.mpr ⟨path, barePath?_bracket hpath rest, rfl⟩
  · obtain ⟨path, hpath, heq⟩ := Option.map_eq_some_iff.mp h
    obtain rfl := List.append_cancel_left heq
    exact Option.map_eq_some_iff.mpr ⟨path, barePath?_bracket hpath rest, rfl⟩
  · cases h

theorem exists_of_bare? {text : List Char} (h : Address.bare? true text = some text) :
    ∃ s, text = 'h' :: s := by
  unfold Address.bare? at h
  split at h
  · exact ⟨_, rfl⟩
  · exact ⟨_, rfl⟩
  · cases h

theorem scanned_address (hurls : ctx.extensions.bareUrls = true) (hst : st.inAnchor = false)
    (hopen : st.bracketed = true) {text : List Char} (h : Address.bare? true text = some text)
    (rest : List Char) :
    ∃ st', Scanned ctx st (text ++ ']' :: rest) [.inline (.address text text (Url.encode text))]
      st' (']' :: rest) ∧ Keeps st st' := by
  have haddress := bare?_bracket h rest
  obtain ⟨s, rfl⟩ := exists_of_bare? h
  have hstep : ∀ inside, Scan.step ctx inside st 'h' (s ++ ']' :: rest) =
      (st.push (.address ('h' :: s) ('h' :: s) (Url.encode ('h' :: s))), s.length) := by
    intro inside
    have hbare : ctx.bareAddress? st ('h' :: (s ++ ']' :: rest)) = some ('h' :: s) := by
      rw [InlineContext.bareAddress?, hurls, hopen]
      exact haddress
    simp [Scan.step, hbare, hst]
  have hgoes := Goes.of_step hstep
  rw [List.drop_left] at hgoes
  exact ⟨_, ⟨hgoes, hst, rfl⟩, .of_cons rfl rfl⟩

def Run.Read (r : Run) (xs : List Inline) : Prop :=
  match r.link with
  | none => r.style.Read r.text.toList xs
  | some href => ∃ kids, xs = [.link ⟨Url.encodeText href, none⟩ false kids] ∧
    r.style.Read r.text.toList kids

/-- The address of a link, which is its text, is a link of its own only outside of brackets. -/
theorem scanned_link_address (hurls : ctx.extensions.bareUrls = true) (hst : st.inAnchor = false)
    {text : List Char} (h : Address.bare? true text = some text) {href : String} (hne : href ≠ "")
    (hhref : href.toList.all isDestinationChar = true) (after : List Char) :
    ∃ st' ps xs kids, Scanned ctx st ('[' :: (text ++ (linkEnd href ++ after))) ps st' after ∧
      Settles ps xs ∧ xs = [.link ⟨Url.encodeText href, none⟩ false kids] ∧ Spelled text kids ∧
      st'.before = '\ufffc' := by
  have hend : linkEnd href ++ after = ']' :: ('(' :: (href.toList ++ [')']) ++ after) := rfl
  have hdepth : Inline.depthOf (Inline.mergeTexts [.address text text (Url.encode text)]) <
      Inline.maxDepth := by
    simp [Inline.mergeTexts, Inline.consMerged, Inline.depthOf, Inline.depth, Inline.maxDepth]
  have hinside : (openBracket st (text ++ (linkEnd href ++ after))).inAnchor = false := hst
  obtain ⟨st', hscanned, hkeeps⟩ := scanned_address hurls hinside rfl h
    ('(' :: (href.toList ++ [')']) ++ after)
  rw [← hend] at hscanned
  obtain ⟨st'', hlinked, hbefore⟩ := scanned_brackets hst hscanned hkeeps
    (settles_inline [.address text text (Url.encode text)]) hdepth hne hhref
  have hspelled := (Spelled.text text .nil).mergeTexts
  rw [List.append_nil] at hspelled
  exact ⟨st'', _, _, _, hlinked, settles_inline [_], rfl, hspelled, hbefore⟩

theorem scanned_link_style (hctx : ctx.definitions = []) (hst : st.inAnchor = false)
    {style : Style} {text after : List Char} {href : String} (htext : text ≠ [])
    (hbrackets : style = .code ∨ '[' ∉ text ∧ ']' ∉ text)
    (h : style.isLegible '[' text (linkEnd href ++ after) = true) (hne : href ≠ "")
    (hhref : href.toList.all isDestinationChar = true) :
    ∃ st' ps xs kids, Scanned ctx st ('[' :: (style.sign.toList ++ (text ++
        (style.sign.toList ++ (linkEnd href ++ after))))) ps st' after ∧
      Settles ps xs ∧ xs = [.link ⟨Url.encodeText href, none⟩ false kids] ∧ style.Read text kids ∧
      st'.before = '\ufffc' := by
  have hassoc : style.sign.toList ++ (text ++ (style.sign.toList ++ (linkEnd href ++ after))) =
      (style.sign.toList ++ (text ++ style.sign.toList)) ++ (linkEnd href ++ after) := by
    simp only [List.append_assoc]
  have hinside : (openBracket st (style.sign.toList ++ (text ++ (style.sign.toList ++
      (linkEnd href ++ after))))).inAnchor = false := hst
  obtain ⟨st', ps, xs, hscanned, hsettles, hread, -, hkeeps⟩ :=
    scanned_style hctx hinside htext h (clear_cons (by decide) (by decide) _)
  rw [hassoc] at hscanned hkeeps ⊢
  obtain ⟨st'', hlinked, hbefore⟩ := scanned_brackets hst hscanned (hkeeps hbrackets) hsettles
    hread.mergeTexts.depthOf_lt hne hhref
  have hkids := hread.mergeTexts.listWithoutAddresses.mergeTexts
  exact ⟨st'', _, _, _, hlinked, settles_inline [_], rfl, hkids, hbefore⟩

theorem scanned_run (hctx : ctx.definitions = []) (hurls : ctx.extensions.bareUrls = true)
    (hst : st.inAnchor = false) {r : Run} {after : List Char}
    (h : r.isLegible st.before after = true) (hafter : Clear after) :
    ∃ st' ps xs, Scanned ctx st (r.markdown.toList ++ after) ps st' after ∧ Settles ps xs ∧
      r.Read xs ∧ st'.before = r.exit := by
  obtain ⟨link, style, text, hlink, htext⟩ := r
  have hne : text.toList ≠ [] := by simpa using htext
  cases link with
  | none =>
    obtain ⟨st', ps, xs, hscanned, hsettles, hread, hbefore, -⟩ :=
      scanned_style hctx hst hne h hafter
    have hmarkdown : Run.markdown ⟨none, style, text, hlink, htext⟩ =
        style.sign ++ text ++ style.sign := rfl
    refine ⟨st', ps, xs, ?_, hsettles, hread, hbefore⟩
    simpa [hmarkdown] using hscanned
  | some href =>
    have hhref : href ≠ "" := by simpa using hlink
    simp only [Run.isLegible, Bool.and_eq_true, Bool.or_eq_true, beq_iff_eq, Bool.not_eq_true',
      Bool.or_eq_false_iff, List.contains_eq_mem, decide_eq_false_iff_not] at h
    obtain ⟨hdestination, h⟩ := h
    have hmarkdown : (Run.markdown ⟨some href, style, text, hlink, htext⟩).toList ++ after =
        '[' :: (style.sign.toList ++ (text.toList ++ (style.sign.toList ++
          (linkEnd href ++ after)))) := by
      simp [Run.markdown, Run.styled, linkEnd]
    rw [hmarkdown]
    rcases h with ⟨rfl, haddress⟩ | ⟨hbrackets, h⟩
    · obtain ⟨st', ps, xs, kids, hscanned, hsettles, hxs, hread, hbefore⟩ :=
        scanned_link_address hurls hst haddress hhref hdestination after
      exact ⟨st', ps, xs, hscanned, hsettles, ⟨kids, hxs, hread⟩, hbefore⟩
    · obtain ⟨st', ps, xs, kids, hscanned, hsettles, hxs, hread, hbefore⟩ :=
        scanned_link_style hctx hst hne hbrackets h hhref hdestination
      exact ⟨st', ps, xs, hscanned, hsettles, ⟨kids, hxs, hread⟩, hbefore⟩

inductive RunsRead : List Run → List Inline → Prop where
  | nil : RunsRead [] []
  | cons {r : Run} {rs : List Run} {xs ys : List Inline} (hr : r.Read xs) (hrs : RunsRead rs ys) :
    RunsRead (r :: rs) (xs ++ ys)

theorem clear_of_areLegible {before : Char} {rs : List Run} (h : areLegible before rs = true) :
    Clear (chars rs) := by
  induction rs generalizing before with
  | nil => exact ⟨fun t => by simp [chars], fun _ => rfl⟩
  | cons r rs ih =>
    rw [areLegible, Bool.and_eq_true] at h
    obtain ⟨hr, hrs⟩ := h
    obtain ⟨link, style, text, hlink, htext⟩ := r
    rw [chars, List.flatMap_cons]
    cases link with
    | some href =>
      rw [Run.markdown, String.append_assoc]
      simp only [String.toList_append, List.append_assoc]
      exact clear_cons (by decide) (by decide) _
    | none =>
      rw [Run.markdown, Run.styled]
      simp only [String.toList_append, List.append_assoc]
      cases style with
      | plain =>
        have hplain : Clear (text.toList ++ chars rs) := clear_of_isVerbatim hr (ih hrs)
        simpa [Style.sign, chars] using hplain
      | emInStrong => cases hr
      | strong | em | strongInEm | code => exact clear_cons (by decide) (by decide) _

theorem scanned_runs (hctx : ctx.definitions = []) (hurls : ctx.extensions.bareUrls = true)
    (hst : st.inAnchor = false) {rs : List Run} (h : areLegible st.before rs = true) :
    ∃ st' ps xs, Scanned ctx st (chars rs) ps st' [] ∧ Settles ps xs ∧ RunsRead rs xs := by
  induction rs generalizing st with
  | nil => exact ⟨st, [], [], ⟨.refl ctx st [], hst, rfl⟩, fun base => rfl, .nil⟩
  | cons r rs ih =>
    rw [areLegible, Bool.and_eq_true] at h
    obtain ⟨st', ps, xs, hscanned, hsettles, hread, hbefore⟩ :=
      scanned_run hctx hurls hst h.1 (clear_of_areLegible h.2)
    obtain ⟨st'', qs, ys, hscanned', hsettles', hread'⟩ :=
      ih hscanned.outside (hbefore ▸ h.2)
    exact ⟨st'', _, _, hscanned.trans hscanned', hsettles.append hsettles', .cons hread hread'⟩

/-- Legible runs are read as they were meant, but for neighbouring texts that are one. -/
theorem readInline_chars (hctx : ctx.definitions = []) (hurls : ctx.extensions.bareUrls = true)
    {rs : List Run} (h : areLegible '\n' rs = true) :
    ∃ xs, readInline ctx (chars rs) = Inline.mergeTexts xs ∧ RunsRead rs xs := by
  have hstart : Scan.inAnchor ⟨[], false⟩ = false := rfl
  obtain ⟨st', ps, xs, hscanned, hsettles, hread⟩ := scanned_runs hctx hurls hstart h
  refine ⟨xs, ?_, hread⟩
  have hpieces : st'.pieces.reverse.map settle = ps.map settle := by
    rw [List.map_reverse, hscanned.settled, List.map_nil, List.append_nil, List.reverse_reverse]
  rw [readInline, hscanned.goes.run_eq, Scan.finish, resolve_eq_of_settle hpieces,
    hsettles.resolve_eq]

end AdfMarkdown.Prose
