import AdfMarkdown.Proofs.JsonCompleteness

/-! # What the reader takes is JSON

What is taken off the front of a text is a phrase of the grammar. So a text is read exactly if it is
a JSON text whose integer literals have few enough digits.
-/

namespace AdfMarkdown.Json

open Grammar

section Soundness

variable {s rest : List Char}

section Strings

theorem hexDigits_of_readUnit {n : Nat} (h : readUnit s = some (n, rest)) :
    ∃ a b c d, (∀ x ∈ [a, b, c, d], Text.isHexDigit x = true) ∧ s = a :: b :: c :: d :: rest := by
  unfold readUnit at h
  split at h
  · next a b c d e more =>
    simp only [Option.bind_eq_bind, Option.bind_eq_some_iff] at h
    obtain ⟨a', ha, b', hb, c', hc, d', hd, hrest⟩ := h
    obtain ⟨-, rfl⟩ := Prod.mk.inj (Option.some.inj hrest)
    refine ⟨a, b, c, d, ?_, rfl⟩
    simp [Text.isHexDigit, ha, hb, hc, hd]
  · cases h

theorem characters_of_readUnicodeEscape {c : Char}
    (h : readUnicodeEscape s = .ok (c, rest)) :
    ∃ t, s = t ++ rest ∧ ∀ s', Characters s' → Characters ('\\' :: 'u' :: (t ++ s')) := by
  unfold readUnicodeEscape at h
  split at h
  · cases h
  · next n more hunit =>
    obtain ⟨a, b, c, d, hhex, rfl⟩ := hexDigits_of_readUnit hunit
    have hone (h : more = rest) : ∃ t, a :: b :: c :: d :: more = t ++ rest ∧
        ∀ s', Characters s' → Characters ('\\' :: 'u' :: (t ++ s')) :=
      ⟨[a, b, c, d], by rw [h]; rfl, fun _ hs' => .unit hhex hs'⟩
    split at h
    · split at h
      · next second =>
        split at h
        · exact hone (Prod.mk.inj (Except.ok.inj h)).2
        · split at h
          · cases h
          · next m after hsecond =>
            obtain ⟨a', b', c', d', hhex', rfl⟩ := hexDigits_of_readUnit hsecond
            split at h
            · obtain ⟨-, rfl⟩ := Prod.mk.inj (Except.ok.inj h)
              exact ⟨[a, b, c, d, '\\', 'u', a', b', c', d'], rfl,
                fun _ hs' => .unit hhex (.unit hhex' hs')⟩
            · exact hone (Prod.mk.inj (Except.ok.inj h)).2
      · exact hone (Prod.mk.inj (Except.ok.inj h)).2
    · exact hone (Prod.mk.inj (Except.ok.inj h)).2

theorem mem_of_simpleEscape? {e c : Char} (h : simpleEscape? e = some c) :
    e ∈ ['"', '\\', '/', 'b', 'f', 'n', 'r', 't'] := by
  unfold simpleEscape? at h
  split at h <;> first | decide | cases h

theorem characters_of_readText {start : Nat} {v : String} : ∀ (fuel : Nat) (acc s : List Char),
    readText start fuel acc s = .ok (v, rest) → ∃ t, Characters t ∧ s = t ++ '"' :: rest := by
  intro fuel
  induction fuel with
  | zero => exact fun _ _ h => nomatch h
  | succ fuel ih =>
    intro acc s h
    unfold readText at h
    split at h
    · cases h
    · obtain ⟨-, rfl⟩ := Prod.mk.inj (Except.ok.inj h)
      exact ⟨[], .nil, rfl⟩
    · cases h
    · next more =>
      cases hunit : readUnicodeEscape more with
      | error e =>
        rw [hunit] at h
        cases h
      | ok r =>
        obtain ⟨c, after⟩ := r
        rw [hunit] at h
        obtain ⟨u, rfl, hu⟩ := characters_of_readUnicodeEscape hunit
        obtain ⟨t, ht, rfl⟩ := ih _ _ h
        exact ⟨_, hu t ht, by simp⟩
    · next e more _ =>
      split at h
      · next c hc =>
        obtain ⟨t, ht, rfl⟩ := ih _ _ h
        exact ⟨_, .escape (mem_of_simpleEscape? hc) ht, rfl⟩
      · cases h
    · next c more hquote hend hu hescape =>
      split at h
      · cases h
      · next hcontrol =>
        obtain ⟨t, ht, rfl⟩ := ih _ _ h
        refine ⟨_, .plain (Nat.not_lt.mp hcontrol) ?_ ht, rfl⟩
        simp only [List.mem_cons, List.not_mem_nil, or_false, not_or]
        refine ⟨hquote, ?_⟩
        rintro rfl
        obtain ⟨e, after, hmore⟩ : ∃ e after, t ++ '"' :: rest = e :: after :=
          List.exists_cons_of_ne_nil (by simp)
        exact hescape e after rfl hmore

end Strings

section Numbers

theorem whole_of_readWhole {whole : List Char} (h : readWhole s = some (whole, rest)) :
    Whole whole ∧ s = whole ++ rest := by
  obtain ⟨hs, hdigits⟩ := readWhole_eq_some h
  refine ⟨?_, hs⟩
  unfold readWhole at h
  split at h
  · obtain ⟨rfl, rfl⟩ := Prod.mk.inj (Option.some.inj h)
    exact ⟨⟨List.cons_ne_nil _ _, hdigits⟩, fun _ => rfl⟩
  · next hzero =>
    dsimp only at h
    split_ifs at h with hempty
    obtain ⟨hwhole, -⟩ := Prod.mk.inj (Option.some.inj h)
    rw [hwhole, List.isEmpty_iff] at hempty
    refine ⟨⟨hempty, hdigits⟩, fun hhead => ?_⟩
    obtain ⟨c, cs, rfl⟩ := List.exists_cons_of_ne_nil hempty
    obtain rfl := Option.some.inj hhead
    exact absurd hs (hzero _)

theorem takeWhile_isDigit_append_drop (s : List Char) :
    s.takeWhile Text.isDigit ++ s.drop (s.takeWhile Text.isDigit).length = s :=
  List.prefix_iff_eq_append.mp (List.takeWhile_prefix _)

theorem fraction_of_readFraction (s : List Char) :
    ∃ f, Fraction f ∧ s = f ++ (readFraction s).2 ∧ ((readFraction s).1 = [] ↔ f = []) := by
  unfold readFraction
  split
  · next rest =>
    dsimp only
    split
    · exact ⟨[], .none, rfl, by simp⟩
    · next hempty =>
      rw [List.isEmpty_iff] at hempty
      refine ⟨_, .digits ⟨hempty, fun _ hc => List.mem_takeWhile_imp hc⟩, ?_, by simp [hempty]⟩
      rw [List.cons_append, takeWhile_isDigit_append_drop]
  · exact ⟨[], .none, rfl, by simp⟩

theorem exponent_of_readExponent (s : List Char) :
    ∃ e, Exponent e ∧ s = e ++ (readExponent s).2 ∧ ((readExponent s).1 = none ↔ e = []) := by
  unfold readExponent
  split
  · next e rest =>
    split
    · next hmark =>
      have he : e ∈ ['e', 'E'] := by simpa using hmark
      split
      next negative body hsigned =>
      obtain ⟨sign, hsign, rfl⟩ : ∃ sign, sign ∈ [[], ['+'], ['-']] ∧ rest = sign ++ body := by
        split at hsigned
        · obtain ⟨-, rfl⟩ := Prod.mk.inj hsigned
          exact ⟨['-'], by simp, rfl⟩
        · obtain ⟨-, rfl⟩ := Prod.mk.inj hsigned
          exact ⟨['+'], by simp, rfl⟩
        · obtain ⟨-, rfl⟩ := Prod.mk.inj hsigned
          exact ⟨[], by simp, rfl⟩
      dsimp only
      split
      · exact ⟨[], .none, rfl, by simp⟩
      · next hempty =>
        rw [List.isEmpty_iff] at hempty
        refine ⟨_, .digits he hsign ⟨hempty, fun _ hc => List.mem_takeWhile_imp hc⟩, ?_, by simp⟩
        rw [List.cons_append, List.append_assoc, takeWhile_isDigit_append_drop]
    · exact ⟨[], .none, rfl, by simp⟩
  · exact ⟨[], .none, rfl, by simp⟩

theorem number_of_readUnsigned {negative : Bool} {v : Json} {sign : List Char}
    (hsign : sign ∈ [[], ['-']]) (h : readUnsigned negative s = some (.ok (v, rest))) :
    ∃ t ns, Number (sign ++ t) ns ∧ InRange ns ∧ s = t ++ rest := by
  unfold readUnsigned at h
  simp only [Option.bind_eq_bind, Option.bind_eq_some_iff] at h
  obtain ⟨⟨whole, afterWhole⟩, hread, h⟩ := h
  obtain ⟨hwhole, rfl⟩ := whole_of_readWhole hread
  obtain ⟨f, hf, hfraction, hfnil⟩ := fraction_of_readFraction afterWhole
  obtain ⟨e, he, hexponent, henil⟩ := exponent_of_readExponent (readFraction afterWhole).2
  dsimp only at h
  split at h
  · next hinteger =>
    simp only [Bool.and_eq_true, List.isEmpty_iff, Option.isNone_iff_eq_none, hfnil, henil]
      at hinteger
    obtain ⟨rfl, rfl⟩ := hinteger
    split at h
    · cases h
    · next hlong =>
      obtain ⟨-, rfl⟩ := Prod.mk.inj (Except.ok.inj (Option.some.inj h))
      refine ⟨whole, _, .integer hsign hwhole,
        List.forall_mem_singleton.mpr (Nat.not_lt.mp hlong), ?_⟩
      rw [← List.nil_append (readExponent _).2, ← hexponent]
      exact congrArg (whole ++ ·) hfraction
  · next hdecimal =>
    obtain ⟨-, rfl⟩ := Prod.mk.inj (Except.ok.inj (Option.some.inj h))
    refine ⟨whole ++ (f ++ e), [], .decimal hsign hwhole hf he ?_, inRange_nil, ?_⟩
    · simpa only [Bool.and_eq_true, List.isEmpty_iff, Option.isNone_iff_eq_none, hfnil, henil,
        ne_eq, List.append_eq_nil_iff] using hdecimal
    · rw [List.append_assoc, List.append_assoc, ← hexponent, ← hfraction]

theorem value_of_readNumber {v : Json} (h : readNumber s = .ok (v, rest)) :
    ∃ t ns, Value t ns ∧ InRange ns ∧ s = t ++ rest := by
  have hunsigned (negative : Bool) (sign : List Char) {t : List Char} (hsign : sign ∈ [[], ['-']])
      (h : (readUnsigned negative t).getD (.error (.fault .expectingValue s.length)) =
        .ok (v, rest)) : ∃ u ns, Value u ns ∧ InRange ns ∧ sign ++ t = u ++ rest := by
    cases hread : readUnsigned negative t with
    | none =>
      rw [hread] at h
      cases h
    | some r =>
      rw [hread, Option.getD_some] at h
      obtain ⟨u, ns, hnumber, hns, rfl⟩ := number_of_readUnsigned hsign (h ▸ hread)
      exact ⟨sign ++ u, ns, .number hnumber, hns, (List.append_assoc _ _ _).symm⟩
  unfold readNumber at h
  dsimp only at h
  split at h
  · next after =>
    obtain ⟨-, rfl⟩ := Prod.mk.inj (Except.ok.inj h)
    exact ⟨"-Infinity".toList, [], .word (by decide), inRange_nil, rfl⟩
  · exact hunsigned true ['-'] (by decide) h
  · exact hunsigned false [] (by decide) h

end Numbers

section Values

/-- What each of the three readers of values takes off the front of a text, with the fuel they
have. -/
structure Grammatical (fuel : Nat) : Prop where
  value : ∀ {s v rest}, readValue fuel s = .ok (v, rest) →
    ∃ t ns, Value t ns ∧ InRange ns ∧ s = t ++ rest
  items : ∀ {s vs rest}, readItems fuel (skipGap s) = .ok (vs, rest) →
    ∃ t ns, Elements t ns ∧ InRange ns ∧ s = t ++ ']' :: rest
  fields : ∀ {s acc fields rest}, readFields fuel acc (skipGap s) = .ok (fields, rest) →
    ∃ t ns, Members t ns ∧ InRange ns ∧ s = t ++ '\x7d' :: rest

variable {fuel : Nat}

theorem Grammatical.element (h : Grammatical fuel) {v : Json}
    (hv : readValue fuel (skipGap s) = .ok (v, rest)) :
    ∃ t ns, Element t ns ∧ InRange ns ∧ s = t ++ skipGap rest := by
  obtain ⟨t, ns, ht, hns, hskip⟩ := h.value hv
  obtain ⟨g, hg, hs⟩ := exists_gap_append s
  obtain ⟨b, hb, hrest⟩ := exists_gap_append rest
  refine ⟨g ++ (t ++ b), ns, .value hg ht hb, hns, ?_⟩
  rw [List.append_assoc, List.append_assoc, ← hrest, ← hskip, ← hs]

theorem Grammatical.items_succ (h : Grammatical fuel) {vs : List Json}
    (hread : readItems (fuel + 1) (skipGap s) = .ok (vs, rest)) :
    ∃ t ns, Elements t ns ∧ InRange ns ∧ s = t ++ ']' :: rest := by
  rw [readItems] at hread
  obtain ⟨⟨v, after⟩, hv, hafter⟩ := exists_of_bind_eq_ok hread
  obtain ⟨t, ns, ht, hns, rfl⟩ := h.element hv
  dsimp only at hafter
  split at hafter
  · next hskip =>
    obtain ⟨-, rfl⟩ := Prod.mk.inj (Except.ok.inj hafter)
    exact ⟨t, ns, .last ht, hns, by rw [hskip]⟩
  · next more hskip =>
    obtain ⟨⟨vs, after⟩, hvs, hmore⟩ := exists_of_bind_eq_ok hafter
    obtain ⟨-, rfl⟩ := Prod.mk.inj (Except.ok.inj hmore)
    obtain ⟨u, ms, hu, hms, rfl⟩ := h.items hvs
    refine ⟨_, _, .more ht hu, inRange_append.mpr ⟨hns, hms⟩, ?_⟩
    rw [hskip, List.append_assoc, List.cons_append]
  · cases hafter

theorem Grammatical.fields_succ (h : Grammatical fuel) {acc fields : Fields}
    (hread : readFields (fuel + 1) acc (skipGap s) = .ok (fields, rest)) :
    ∃ t ns, Members t ns ∧ InRange ns ∧ s = t ++ '\x7d' :: rest := by
  obtain ⟨g, hg, hs⟩ := exists_gap_append s
  unfold readFields at hread
  split at hread
  · next more hmore =>
    obtain ⟨⟨k, afterName⟩, hname, hcolon⟩ := exists_of_bind_eq_ok hread
    obtain ⟨name, hk, rfl⟩ := characters_of_readText _ _ _ hname
    obtain ⟨b, hb, hafterName⟩ := exists_gap_append afterName
    dsimp only at hcolon
    split at hcolon
    · next body hbody =>
      rw [hbody] at hafterName
      obtain ⟨⟨v, afterValue⟩, hv, hafter⟩ := exists_of_bind_eq_ok hcolon
      obtain ⟨t, ns, ht, hns, rfl⟩ := h.element hv
      have hfield := Member.field hg hk hb ht
      rw [hs, hmore, hafterName]
      dsimp only at hafter
      split at hafter
      · next hskip =>
        obtain ⟨-, rfl⟩ := Prod.mk.inj (Except.ok.inj hafter)
        exact ⟨_, ns, .last hfield, hns, by rw [hskip]; simp⟩
      · next more hskip =>
        obtain ⟨u, ms, hu, hms, rfl⟩ := h.fields hafter
        exact ⟨_, _, .more hfield hu, inRange_append.mpr ⟨hns, hms⟩, by rw [hskip]; simp⟩
      · cases hafter
    · cases hcolon
  · cases hread

theorem Grammatical.value_succ (h : Grammatical fuel) {v : Json}
    (hread : readValue (fuel + 1) s = .ok (v, rest)) :
    ∃ t ns, Value t ns ∧ InRange ns ∧ s = t ++ rest := by
  have hword (word : List Char) {after : List Char} (hword : word ∈ words) {x : Json}
      (h : Except.ok (ε := Failure) (x, after) = .ok (v, rest)) :
      ∃ t ns, Value t ns ∧ InRange ns ∧ word ++ after = t ++ rest := by
    obtain ⟨-, rfl⟩ := Prod.mk.inj (Except.ok.inj h)
    exact ⟨word, [], .word hword, inRange_nil, rfl⟩
  unfold readValue at hread
  split at hread
  · obtain ⟨⟨t, after⟩, htext, hread⟩ := exists_of_bind_eq_ok hread
    obtain ⟨-, rfl⟩ := Prod.mk.inj (Except.ok.inj hread)
    obtain ⟨t, ht, rfl⟩ := characters_of_readText _ _ _ htext
    exact ⟨_, [], .text ht, inRange_nil, by simp⟩
  · next more =>
    obtain ⟨g, hg, hs⟩ := exists_gap_append more
    split at hread
    · next after hafter =>
      obtain ⟨-, rfl⟩ := Prod.mk.inj (Except.ok.inj hread)
      rw [hafter] at hs
      exact ⟨_, [], .emptyArray hg, inRange_nil, by rw [hs]; simp⟩
    · obtain ⟨⟨items, after⟩, hitems, hread⟩ := exists_of_bind_eq_ok hread
      obtain ⟨-, rfl⟩ := Prod.mk.inj (Except.ok.inj hread)
      obtain ⟨t, ns, ht, hns, rfl⟩ := h.items hitems
      exact ⟨_, ns, .array ht, hns, by simp⟩
  · next more =>
    obtain ⟨g, hg, hs⟩ := exists_gap_append more
    split at hread
    · next after hafter =>
      obtain ⟨-, rfl⟩ := Prod.mk.inj (Except.ok.inj hread)
      rw [hafter] at hs
      exact ⟨_, [], .emptyObject hg, inRange_nil, by rw [hs]; simp⟩
    · obtain ⟨⟨fields, after⟩, hfields, hread⟩ := exists_of_bind_eq_ok hread
      obtain ⟨-, rfl⟩ := Prod.mk.inj (Except.ok.inj hread)
      obtain ⟨t, ns, ht, hns, rfl⟩ := h.fields hfields
      exact ⟨_, ns, .object ht, hns, by simp⟩
  · exact hword "null".toList (by decide) hread
  · exact hword "true".toList (by decide) hread
  · exact hword "false".toList (by decide) hread
  · exact hword "NaN".toList (by decide) hread
  · exact hword "Infinity".toList (by decide) hread
  · exact value_of_readNumber hread

theorem grammatical (fuel : Nat) : Grammatical fuel := by
  induction fuel with
  | zero => exact ⟨nofun, nofun, nofun⟩
  | succ fuel ih => exact ⟨ih.value_succ, ih.items_succ, ih.fields_succ⟩

end Values

theorem element_of_readAll {v : Json} (h : readAll s = .ok v) :
    ∃ ns, Element s ns ∧ InRange ns := by
  rw [readAll] at h
  obtain ⟨⟨v, rest⟩, hv, h⟩ := exists_of_bind_eq_ok h
  obtain ⟨t, ns, ht, hns, hs⟩ := (grammatical _).element hv
  dsimp only at h
  split at h
  · next hskip =>
    rw [hskip, List.append_nil] at hs
    exact ⟨ns, hs ▸ ht, hns⟩
  · cases h

end Soundness

section Texts

variable {s : List Char} {ns : List Nat}

/-- A JSON text is read, or one of its integer literals has too many digits. -/
theorem readChars_of_element (hs : Element s ns) :
    (∃ v, readChars s = .ok v) ∧ InRange ns ∨
      ∃ n ∈ ns, maxDigits < n ∧ readChars s = .error (.longInteger n) := by
  rcases readAll_of_element hs with ⟨⟨v, hv⟩, hns⟩ | ⟨n, hn, hmany, herror⟩
  · exact .inl ⟨⟨v, by rw [readChars, hv]⟩, hns⟩
  · exact .inr ⟨n, hn, hmany, by rw [readChars, herror]⟩

theorem element_of_readChars {v : Json} (h : readChars s = .ok v) :
    ∃ ns, Element s ns ∧ InRange ns := by
  unfold readChars at h
  split at h
  · next w hw => exact element_of_readAll hw
  · cases h
  · cases h

theorem head?_ne_of_element (hs : Element s ns) : s.head? ≠ some '\ufeff' := by
  cases hs with
  | @value g s h ns hg hs _ =>
    obtain ⟨c, cs, rfl, hc⟩ := hs.exists_eq_cons
    cases g with
    | nil =>
      rintro ⟨⟩
      exact hc (by decide)
    | cons c g =>
      rintro ⟨⟩
      exact absurd (hg _ (.head _)) (by decide)

end Texts

end AdfMarkdown.Json
