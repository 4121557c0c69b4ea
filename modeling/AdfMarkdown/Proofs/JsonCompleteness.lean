import AdfMarkdown.Proofs.JsonWriting

/-! # The reader takes the phrases of JSON

Every phrase of the grammar is taken off the front of a text, unless one of its integer literals has
too many digits.
-/

namespace AdfMarkdown.Json

open Grammar

def InRange (literals : List Nat) : Prop := ∀ n ∈ literals, n ≤ maxDigits

theorem inRange_nil : InRange [] := List.forall_mem_nil _

theorem inRange_append {ns ms : List Nat} : InRange (ns ++ ms) ↔ InRange ns ∧ InRange ms :=
  List.forall_mem_append

section Gaps

variable {g s : List Char}

theorem skipGap_append (hg : Gap g) : skipGap (g ++ s) = skipGap s :=
  List.dropWhile_append_of_pos hg

theorem exists_gap_append (s : List Char) : ∃ g, Gap g ∧ s = g ++ skipGap s :=
  ⟨s.takeWhile isGap, fun _ hc => List.mem_takeWhile_imp hc, List.takeWhile_append_dropWhile.symm⟩

theorem Grammar.Gap.append {h : List Char} (hg : Gap g) (hh : Gap h) : Gap (g ++ h) :=
  List.forall_mem_append.mpr ⟨hg, hh⟩

theorem endsNumber_gap_append (hg : Gap g) (hs : EndsNumber s) : EndsNumber (g ++ s) := by
  cases g with
  | nil => exact hs
  | cons c g =>
    have hc := hg c (.head _)
    simp only [isGap, Bool.or_eq_true, beq_iff_eq] at hc
    apply endsNumber_cons
    rcases hc with ((rfl | rfl) | rfl) | rfl <;> decide

end Gaps

section Completeness

variable {α β : Type} {s t : List Char} {ns : List Nat}

/-- The reader has taken a phrase with these literals off the front of a text and leaves the rest,
or it has stopped at one of them that has too many digits. -/
def Takes (literals : List Nat) (rest : List Char) : Except Failure (α × List Char) → Prop
  | .ok (_, left) => left = rest ∧ InRange literals
  | .error (.longInteger n) => n ∈ literals ∧ maxDigits < n
  | .error (.fault _ _) => False

theorem takes_ok {v : α} : Takes [] t (.ok (v, t)) := ⟨rfl, inRange_nil⟩

theorem Takes.cases {r : Except Failure (α × List Char)} (h : Takes ns t r) :
    (∃ v, r = .ok (v, t)) ∧ InRange ns ∨
      ∃ n ∈ ns, maxDigits < n ∧ r = .error (.longInteger n) := by
  cases r with
  | ok r =>
    obtain ⟨rfl, hns⟩ := h
    exact .inl ⟨⟨r.1, rfl⟩, hns⟩
  | error e =>
    cases e with
    | fault kind left => exact h.elim
    | longInteger n => exact .inr ⟨n, h.1, h.2, rfl⟩

theorem Takes.bind {ms : List Nat} {r : Except Failure (α × List Char)}
    {f : α × List Char → Except Failure (β × List Char)} (h : Takes ns s r)
    (hf : ∀ v, Takes ms t (f (v, s))) : Takes (ns ++ ms) t (r >>= f) := by
  rcases h.cases with ⟨⟨v, rfl⟩, hns⟩ | ⟨n, hn, hmany, rfl⟩
  · change Takes (ns ++ ms) t (f (v, s))
    rcases (hf v).cases with ⟨⟨w, hw⟩, hms⟩ | ⟨m, hm, hmany, herror⟩
    · rw [hw]
      exact ⟨rfl, inRange_append.mpr ⟨hns, hms⟩⟩
    · rw [herror]
      exact ⟨List.mem_append_right _ hm, hmany⟩
  · exact ⟨List.mem_append_left _ hn, hmany⟩

section Strings

theorem readUnit_of_hexDigits {a b c d : Char}
    (h : ∀ x ∈ [a, b, c, d], Text.isHexDigit x = true) (hs : s ≠ []) :
    ∃ n, readUnit (a :: b :: c :: d :: s) = some (n, s) := by
  obtain ⟨e, s, rfl⟩ := List.exists_cons_of_ne_nil hs
  have hvalue {x : Char} (hx : x ∈ [a, b, c, d]) : ∃ n, Text.hexValue? x = some n :=
    Option.isSome_iff_exists.mp (h x hx)
  obtain ⟨a', ha⟩ := hvalue (x := a) (by simp)
  obtain ⟨b', hb⟩ := hvalue (x := b) (by simp)
  obtain ⟨c', hc⟩ := hvalue (x := c) (by simp)
  obtain ⟨d', hd⟩ := hvalue (x := d) (by simp)
  refine ⟨((a' * 16 + b') * 16 + c') * 16 + d', ?_⟩
  rw [readUnit, ha, hb, hc, hd]
  rfl

theorem readUnicodeEscape_of_characters {a b c d : Char}
    (h : ∀ x ∈ [a, b, c, d], Text.isHexDigit x = true) (hs : Characters s) :
    ∃ x s', readUnicodeEscape (a :: b :: c :: d :: (s ++ '"' :: t)) = .ok (x, s' ++ '"' :: t) ∧
      Characters s' ∧ s'.length ≤ s.length := by
  obtain ⟨n, hn⟩ := readUnit_of_hexDigits h (s := s ++ '"' :: t) (by simp)
  rw [readUnicodeEscape, hn]
  dsimp only
  split
  · split
    · next second hsecond =>
      cases hs with
      | nil => simp at hsecond
      | plain _ hc _ =>
        obtain ⟨rfl, -⟩ := List.cons.inj hsecond
        simp at hc
      | escape he _ =>
        rw [List.cons_append, List.cons_append] at hsecond
        obtain ⟨-, hsecond⟩ := List.cons.inj hsecond
        obtain ⟨rfl, -⟩ := List.cons.inj hsecond
        exact absurd he (by decide)
      | @unit a' b' c' d' s' h' hs' =>
        obtain ⟨m, hm⟩ := readUnit_of_hexDigits h' (s := s' ++ '"' :: t) (by simp)
        obtain rfl : a' :: b' :: c' :: d' :: (s' ++ '"' :: t) = second := by simpa using hsecond
        rw [hm]
        dsimp only
        rw [if_neg (by simp only [List.length_cons, List.length_append]; omega)]
        split
        · exact ⟨_, s', rfl, hs', by simp; omega⟩
        · exact ⟨_, _, rfl, .unit h' hs', le_rfl⟩
    · exact ⟨_, s, rfl, hs, le_rfl⟩
  · exact ⟨_, s, rfl, hs, le_rfl⟩

theorem exists_simpleEscape? {e : Char} (he : e ∈ ['"', '\\', '/', 'b', 'f', 'n', 'r', 't']) :
    ∃ c, simpleEscape? e = some c := by
  simp only [List.mem_cons, List.not_mem_nil, or_false] at he
  rcases he with rfl | rfl | rfl | rfl | rfl | rfl | rfl | rfl <;> exact ⟨_, rfl⟩

theorem readText_of_characters (start : Nat) : ∀ (fuel : Nat) (acc : List Char) {s : List Char},
    Characters s → s.length < fuel →
      ∃ v, readText start fuel acc (s ++ '"' :: t) = .ok (v, t) := by
  intro fuel
  induction fuel with
  | zero => exact fun _ _ _ hfuel => absurd hfuel (Nat.not_lt_zero _)
  | succ fuel ih =>
    intro acc s hs hfuel
    cases hs with
    | nil => exact ⟨_, by rw [List.nil_append, readText]⟩
    | @plain c s hc hplain hs =>
      obtain ⟨v, hv⟩ := ih (c :: acc) hs (Nat.lt_of_succ_lt_succ hfuel)
      simp only [List.mem_cons, List.not_mem_nil, or_false, not_or] at hplain
      refine ⟨v, ?_⟩
      rw [List.cons_append, readText, if_neg (Nat.not_lt.mpr hc), hv]
      · exact hplain.1
      · exact fun h => absurd h hplain.2
      · exact fun _ h => absurd h hplain.2
      · exact fun _ _ h => absurd h hplain.2
    | escape he hs =>
      obtain ⟨c, hc⟩ := exists_simpleEscape? he
      rw [List.cons_append, List.cons_append, readText_simpleEscape hc]
      exact ih _ hs (by simp at hfuel; omega)
    | unit h hs =>
      obtain ⟨c, s', hread, hs', hlength⟩ := readUnicodeEscape_of_characters (t := t) h hs
      obtain ⟨v, hv⟩ := ih (c :: acc) hs' (by simp at hfuel; omega)
      refine ⟨v, ?_⟩
      simp only [List.cons_append]
      rw [readText, hread]
      exact hv

theorem readText_string (hs : Characters s) :
    ∃ v, readText ('"' :: (s ++ '"' :: t)).length ('"' :: (s ++ '"' :: t)).length []
      (s ++ '"' :: t) = .ok (v, t) := by
  apply readText_of_characters _ _ [] hs
  rw [List.length_cons, List.length_append]
  omega

end Strings

section Numbers

theorem exists_whole_eq_cons (hs : Whole s) : ∃ c cs, s = c :: cs ∧ Text.isDigit c = true := by
  obtain ⟨c, cs, rfl⟩ := List.exists_cons_of_ne_nil hs.1.1
  exact ⟨c, cs, rfl, hs.1.2 c (.head _)⟩

theorem readFraction_of_fraction {f : List Char} (hf : Fraction f)
    (ht : ∀ c ∈ t.head?, Text.isDigit c = false ∧ c ≠ '.') :
    readFraction (f ++ t) = (f.tail, t) ∧ (f.tail = [] ↔ f = []) := by
  cases hf with
  | none =>
    refine ⟨readFraction_of_head?_ne fun hhead => ?_, by simp⟩
    exact (ht '.' hhead).2 rfl
  | @digits f hf =>
    refine ⟨?_, by simp [hf.1]⟩
    rw [List.cons_append, readFraction, takeWhile_isDigit_append hf.2 fun c hc => (ht c hc).1,
      if_neg (by simp [hf.1]), List.drop_left]
    rfl

theorem readExponent_of_exponent {e : List Char} (he : Exponent e) (ht : EndsNumber t) :
    ∃ x, readExponent (e ++ t) = (x, t) ∧ (x = none ↔ e = []) := by
  cases he with
  | none => exact ⟨none, readExponent_of_endsNumber ht, by simp⟩
  | @digits e sign s he hsign hs =>
    have hmark : (e == 'e' || e == 'E') = true := by simpa using he
    have htake := takeWhile_isDigit_append hs.2 fun c hc => (ht c hc).1
    have hempty : ¬ s.isEmpty = true := by simp [hs.1]
    simp only [List.mem_cons, List.not_mem_nil, or_false] at hsign
    rcases hsign with rfl | rfl | rfl
    · obtain ⟨c, cs, rfl⟩ := List.exists_cons_of_ne_nil hs.1
      have hc := hs.2 c (.head _)
      refine ⟨some (Text.digitsValue 10 (c :: cs)), ?_, by simp⟩
      rw [List.nil_append, List.cons_append, List.cons_append, readExponent, if_pos hmark]
      · rw [← List.cons_append, htake, if_neg hempty, List.drop_left]
        rfl
      · rintro body ⟨⟩
        exact absurd hc (by decide)
      · rintro body ⟨⟩
        exact absurd hc (by decide)
    · refine ⟨some (Text.digitsValue 10 s), ?_, by simp⟩
      rw [List.singleton_append, List.cons_append, List.cons_append, readExponent, if_pos hmark,
        htake, if_neg hempty, List.drop_left]
      rfl
    · refine ⟨some (-Text.digitsValue 10 s), ?_, by simp⟩
      rw [List.singleton_append, List.cons_append, List.cons_append, readExponent, if_pos hmark,
        htake, if_neg hempty, List.drop_left]
      rfl

theorem takes_readUnsigned_integer (negative : Bool) (hs : Whole s) (ht : EndsNumber t) :
    ∃ r, readUnsigned negative (s ++ t) = some r ∧ Takes [s.length] t r := by
  refine ⟨_, readUnsigned_whole hs ht negative, ?_⟩
  by_cases hlong : maxDigits < s.length
  · rw [if_pos hlong]
    exact ⟨List.mem_singleton_self _, hlong⟩
  · rw [if_neg hlong]
    exact ⟨rfl, List.forall_mem_singleton.mpr (Nat.not_lt.mp hlong)⟩

theorem takes_readUnsigned_decimal {f e : List Char} (negative : Bool) (hs : Whole s)
    (hf : Fraction f) (he : Exponent e) (hne : f ++ e ≠ []) (ht : EndsNumber t) :
    ∃ r, readUnsigned negative (s ++ (f ++ (e ++ t))) = some r ∧ Takes [] t r := by
  have hafter : ∀ c ∈ (e ++ t).head?, Text.isDigit c = false ∧ c ≠ '.' := by
    cases he with
    | none =>
      intro c hc
      obtain ⟨hdigit, hmarks⟩ := ht c hc
      exact ⟨hdigit, List.ne_of_not_mem_cons hmarks⟩
    | digits he _ _ =>
      rintro c ⟨⟩
      simp only [List.mem_cons, List.not_mem_nil, or_false] at he
      rcases he with rfl | rfl <;> decide
  have hdigits : ∀ c ∈ (f ++ (e ++ t)).head?, Text.isDigit c = false := by
    cases hf with
    | none => exact fun c hc => (hafter c hc).1
    | digits _ =>
      rintro c ⟨⟩
      rfl
  obtain ⟨hfraction, htail⟩ := readFraction_of_fraction hf hafter
  obtain ⟨x, hexponent, hx⟩ := readExponent_of_exponent he ht
  rw [readUnsigned, readWhole_append hs hdigits]
  simp only [Option.bind_eq_bind, Option.bind_some, hfraction, hexponent]
  have hdecimal : ¬ (f.tail.isEmpty && x.isNone) = true := by
    simp only [Bool.and_eq_true, List.isEmpty_iff, Option.isNone_iff_eq_none, htail, hx]
    rintro ⟨rfl, rfl⟩
    exact hne rfl
  rw [if_neg hdecimal]
  exact ⟨_, rfl, takes_ok⟩

theorem Grammar.Number.takes (hs : Number s ns) (ht : EndsNumber t) :
    Takes ns t (readNumber (s ++ t)) := by
  have hread {sign s u ns} (hsign : sign ∈ [[], ['-']]) (hs : Whole s)
      (hr : ∀ negative, ∃ r, readUnsigned negative (s ++ u) = some r ∧ Takes ns t r) :
      Takes ns t (readNumber (sign ++ (s ++ u))) := by
    obtain ⟨c, cs, rfl, hc⟩ := exists_whole_eq_cons hs
    simp only [List.mem_cons, List.not_mem_nil, or_false] at hsign
    rcases hsign with rfl | rfl
    · obtain ⟨r, hr, htakes⟩ := hr false
      rw [List.cons_append] at hr
      rw [List.nil_append, List.cons_append, readNumber_digit hc, hr]
      exact htakes
    · obtain ⟨r, hr, htakes⟩ := hr true
      rw [List.cons_append] at hr
      rw [List.singleton_append, List.cons_append, readNumber_minus hc, hr]
      exact htakes
  cases hs with
  | integer hsign hs =>
    rw [List.append_assoc]
    exact hread hsign hs fun negative => takes_readUnsigned_integer negative hs ht
  | decimal hsign hs hf he hne =>
    simp only [List.append_assoc]
    exact hread hsign hs fun negative => takes_readUnsigned_decimal negative hs hf he hne ht

theorem Grammar.Number.exists_eq_cons (hs : Number s ns) :
    ∃ c cs, s = c :: cs ∧ (c = '-' ∨ Text.isDigit c = true) := by
  have hsigned {sign s u : List Char} (hsign : sign ∈ [[], ['-']]) (hs : Whole s) :
      ∃ c cs, sign ++ (s ++ u) = c :: cs ∧ (c = '-' ∨ Text.isDigit c = true) := by
    obtain ⟨c, cs, rfl, hc⟩ := exists_whole_eq_cons hs
    simp only [List.mem_cons, List.not_mem_nil, or_false] at hsign
    rcases hsign with rfl | rfl
    · exact ⟨c, cs ++ u, rfl, .inr hc⟩
    · exact ⟨'-', c :: cs ++ u, rfl, .inl rfl⟩
  cases hs with
  | @integer sign s hsign hs => simpa using hsigned (u := []) hsign hs
  | decimal hsign hs _ _ _ => exact hsigned hsign hs

end Numbers

section Values

theorem Grammar.Value.exists_eq_cons (hs : Value s ns) : ∃ c cs, s = c :: cs ∧ ¬ NoOpener c := by
  cases hs with
  | word hs =>
    simp only [words, List.mem_cons, List.not_mem_nil, or_false] at hs
    rcases hs with rfl | rfl | rfl | rfl | rfl | rfl <;> exact ⟨_, _, rfl, by decide⟩
  | number hs =>
    obtain ⟨c, cs, rfl, hc⟩ := hs.exists_eq_cons
    exact ⟨c, cs, rfl, not_noOpener_of_number hc⟩
  | _ => exact ⟨_, _, rfl, by decide⟩

theorem Grammar.Value.skipGap_append (hs : Value s ns) : skipGap (s ++ t) = s ++ t := by
  obtain ⟨c, cs, rfl, hc⟩ := hs.exists_eq_cons
  exact skipGap_of_not_isGap (isGap_of_not_noOpener hc)

/-- How each of the three readers of values takes the phrases it is for, with the fuel they have. -/
structure TakesAll (fuel : Nat) : Prop where
  value : ∀ {s t ns}, Value s ns → EndsNumber t → 2 * s.length ≤ fuel →
    Takes ns t (readValue fuel (s ++ t))
  elements : ∀ {s t ns}, Elements s ns → 2 * s.length + 1 ≤ fuel →
    Takes ns t (readItems fuel (skipGap (s ++ ']' :: t)))
  members : ∀ {s t ns} acc, Members s ns → 2 * s.length + 1 ≤ fuel →
    Takes ns t (readFields fuel acc (skipGap (s ++ '\x7d' :: t)))

variable {fuel : Nat}

theorem TakesAll.element (h : TakesAll fuel) (hs : Element s ns) (ht : EndsNumber t)
    (hfuel : 2 * s.length ≤ fuel) :
    ∃ rest, Takes ns rest (readValue fuel (skipGap (s ++ t))) ∧ skipGap rest = skipGap t := by
  cases hs with
  | @value g s b _ hg hs hb =>
    simp only [List.length_append] at hfuel
    refine ⟨b ++ t, ?_, skipGap_append hb⟩
    rw [List.append_assoc, skipGap_append hg, List.append_assoc, hs.skipGap_append]
    exact h.value hs (endsNumber_gap_append hb ht) (by omega)

theorem TakesAll.elements_succ (h : TakesAll fuel) (hs : Elements s ns)
    (hfuel : 2 * s.length ≤ fuel) :
    Takes ns t (readItems (fuel + 1) (skipGap (s ++ ']' :: t))) := by
  cases hs with
  | last hs =>
    obtain ⟨rest, hread, hrest⟩ :=
      h.element (t := ']' :: t) hs (endsNumber_cons (by decide) t) hfuel
    rw [readItems, ← List.append_nil ns]
    refine hread.bind fun v => ?_
    dsimp only
    rw [hrest]
    exact takes_ok
  | @more s u ns ms hs hu =>
    rw [List.length_append, List.length_cons] at hfuel
    obtain ⟨rest, hread, hrest⟩ := h.element (t := ',' :: (u ++ ']' :: t)) hs
      (endsNumber_cons (by decide) _) (by omega)
    rw [List.append_assoc, List.cons_append, readItems]
    refine hread.bind fun v => ?_
    dsimp only
    rw [hrest]
    change Takes ms t (do
      let r ← readItems fuel (skipGap (u ++ ']' :: t))
      return (v :: r.1, r.2))
    rw [← List.append_nil ms]
    exact (h.elements hu (by omega)).bind fun vs => takes_ok

theorem readFields_of_member (acc : Fields) (hs : Member s ns) :
    ∃ k e, Element e ns ∧ e.length ≤ s.length ∧
      readFields (fuel + 1) acc (skipGap (s ++ t)) =
        (readValue fuel (skipGap (e ++ t)) >>= fun r => match skipGap r.2 with
          | '\x7d' :: after => .ok (Fields.put k r.1 acc, after)
          | ',' :: more => readFields fuel (Fields.put k r.1 acc) (skipGap more)
          | after => .error (.fault .expectingComma after.length)) := by
  cases hs with
  | @field g k h e ns hg hk hh he =>
    obtain ⟨name, hname⟩ := readText_string (t := h ++ ':' :: (e ++ t)) hk
    refine ⟨name, e, he, by simp; omega, ?_⟩
    rw [List.append_assoc, skipGap_append hg]
    simp only [List.cons_append, List.append_assoc]
    rw [skipGap_of_not_isGap rfl, readFields, hname]
    dsimp only [Bind.bind, Except.bind]
    rw [skipGap_append hh]
    rfl

theorem TakesAll.members_succ (h : TakesAll fuel) (acc : Fields) (hs : Members s ns)
    (hfuel : 2 * s.length ≤ fuel) :
    Takes ns t (readFields (fuel + 1) acc (skipGap (s ++ '\x7d' :: t))) := by
  cases hs with
  | last hs =>
    obtain ⟨k, e, he, hlength, hfields⟩ := readFields_of_member (t := '\x7d' :: t) acc hs
    obtain ⟨rest, hread, hrest⟩ :=
      h.element (t := '\x7d' :: t) he (endsNumber_cons (by decide) t) (by omega)
    rw [hfields, ← List.append_nil ns]
    refine hread.bind fun v => ?_
    dsimp only
    rw [hrest]
    exact takes_ok
  | @more s u ns ms hs hu =>
    rw [List.length_append, List.length_cons] at hfuel
    rw [List.append_assoc]
    obtain ⟨k, e, he, hlength, hfields⟩ :=
      readFields_of_member (t := ',' :: (u ++ '\x7d' :: t)) acc hs
    obtain ⟨rest, hread, hrest⟩ := h.element (t := ',' :: (u ++ '\x7d' :: t)) he
      (endsNumber_cons (by decide) _) (by omega)
    rw [List.cons_append, hfields]
    refine hread.bind fun v => ?_
    dsimp only
    rw [hrest]
    exact h.members _ hu (by omega)

theorem exists_skipGap_elements_eq_cons (hs : Elements s ns) :
    ∃ c cs, skipGap (s ++ t) = c :: cs ∧ ¬ NoOpener c := by
  have helement {s u : List Char} {ns : List Nat} (hs : Element s ns) :
      ∃ c cs, skipGap (s ++ u) = c :: cs ∧ ¬ NoOpener c := by
    cases hs with
    | value hg hs _ =>
      obtain ⟨c, cs, hcs, hc⟩ := hs.exists_eq_cons
      rw [List.append_assoc, skipGap_append hg, List.append_assoc, hs.skipGap_append, hcs]
      exact ⟨c, _, rfl, hc⟩
  cases hs with
  | last hs => exact helement hs
  | more hs _ =>
    rw [List.append_assoc]
    exact helement hs

theorem exists_skipGap_members_eq_cons (hs : Members s ns) :
    ∃ cs, skipGap (s ++ t) = '"' :: cs := by
  have hmember {s u : List Char} {ns : List Nat} (hs : Member s ns) :
      ∃ cs, skipGap (s ++ u) = '"' :: cs := by
    cases hs with
    | field hg _ _ _ =>
      rw [List.append_assoc, skipGap_append hg]
      exact ⟨_, skipGap_of_not_isGap rfl⟩
  cases hs with
  | last hs => exact hmember hs
  | more hs _ =>
    rw [List.append_assoc]
    exact hmember hs

theorem TakesAll.value_succ (h : TakesAll fuel) (hs : Value s ns) (ht : EndsNumber t)
    (hfuel : 2 * s.length ≤ fuel + 1) : Takes ns t (readValue (fuel + 1) (s ++ t)) := by
  cases hs with
  | word hs =>
    simp only [words, List.mem_cons, List.not_mem_nil, or_false] at hs
    rcases hs with rfl | rfl | rfl | rfl | rfl | rfl <;> exact takes_ok
  | number hs =>
    have htakes := hs.takes ht
    obtain ⟨c, cs, rfl, hc⟩ := hs.exists_eq_cons
    rw [List.cons_append] at htakes ⊢
    rwa [readValue_number hc]
  | text hs =>
    obtain ⟨v, hv⟩ := readText_string (t := t) hs
    rw [List.cons_append, List.append_assoc, List.singleton_append, readValue, hv]
    exact takes_ok
  | emptyArray hg =>
    rw [List.cons_append, List.append_assoc, List.singleton_append, readValue, skipGap_append hg]
    exact takes_ok
  | emptyObject hg =>
    rw [List.cons_append, List.append_assoc, List.singleton_append, readValue, skipGap_append hg]
    exact takes_ok
  | @array s ns hs =>
    rw [List.length_cons, List.length_append] at hfuel
    rw [List.cons_append, List.append_assoc, List.singleton_append, readValue]
    obtain ⟨c, cs, hcs, hc⟩ := exists_skipGap_elements_eq_cons (t := ']' :: t) hs
    have htakes := h.elements (t := t) hs (by simp at hfuel; omega)
    split
    · next after hafter =>
      obtain ⟨rfl, -⟩ := List.cons.inj (hcs.symm.trans hafter)
      exact absurd (by decide) hc
    · rw [← List.append_nil ns]
      exact htakes.bind fun items => takes_ok
  | @object s ns hs =>
    rw [List.length_cons, List.length_append] at hfuel
    rw [List.cons_append, List.append_assoc, List.singleton_append, readValue]
    obtain ⟨cs, hcs⟩ := exists_skipGap_members_eq_cons (t := '\x7d' :: t) hs
    have htakes := h.members (t := t) [] hs (by simp at hfuel; omega)
    split
    · next after hafter => cases hcs.symm.trans hafter
    · rw [← List.append_nil ns]
      exact htakes.bind fun fields => takes_ok

theorem Grammar.Value.length_pos (hs : Value s ns) : 0 < s.length := by
  obtain ⟨c, cs, rfl, -⟩ := hs.exists_eq_cons
  exact Nat.succ_pos _

theorem takesAll (fuel : Nat) : TakesAll fuel := by
  induction fuel with
  | zero =>
    constructor
    · intro s t ns hs _ hfuel
      have := hs.length_pos
      omega
    · exact fun _ hfuel => absurd hfuel (by omega)
    · exact fun _ _ hfuel => absurd hfuel (by omega)
  | succ fuel ih =>
    constructor
    · exact ih.value_succ
    · exact fun hs hfuel => ih.elements_succ hs (by omega)
    · exact fun acc hs hfuel => ih.members_succ acc hs (by omega)

end Values

/-- A JSON text is read, or one of its integer literals has too many digits. -/
theorem readAll_of_element (hs : Element s ns) :
    (∃ v, readAll s = .ok v) ∧ InRange ns ∨
      ∃ n ∈ ns, maxDigits < n ∧ readAll s = .error (.longInteger n) := by
  obtain ⟨rest, htakes, hrest⟩ :=
    (takesAll (2 * s.length + 2)).element (t := []) hs nofun (by omega)
  rw [List.append_nil] at htakes
  rcases htakes.cases with ⟨⟨v, hv⟩, hns⟩ | ⟨n, hn, hmany, herror⟩
  · refine .inl ⟨⟨v, ?_⟩, hns⟩
    rw [readAll, hv]
    dsimp only [Bind.bind, Except.bind]
    rw [hrest]
    rfl
  · refine .inr ⟨n, hn, hmany, ?_⟩
    rw [readAll, herror]
    rfl

end Completeness

end AdfMarkdown.Json
