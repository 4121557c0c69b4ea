import AdfMarkdown.Json.Grammar
import AdfMarkdown.Json.Writer
import AdfMarkdown.Proofs.JsonText
import AdfMarkdown.Proofs.Lines

/-! # What is written in JSON is read back

A value without binary numbers is written on one line of characters that are no control characters,
and reading the line gives the value. The reader has fuel for every character, and what is written
of a value has a character for every step that reads it.
-/

namespace AdfMarkdown

theorem Fields.put_of_not_mem {key : String} {v : Json} {fields : Fields}
    (h : key ∉ fields.map Prod.fst) : put key v fields = fields ++ [(key, v)] := by
  induction fields with
  | nil => rfl
  | cons f rest ih =>
    rw [List.map_cons, List.mem_cons, not_or] at h
    rw [put, if_neg (Ne.symm h.1), ih h.2]
    rfl

namespace Json

section Strings

variable {start fuel : Nat} {acc s rest : List Char}

theorem hexValue?_hexDigit {n : Nat} (h : n < 16) : Text.hexValue? (Text.hexDigit n) = some n := by
  have hall : ∀ m ∈ List.range 16, Text.hexValue? (Text.hexDigit m) = some m := by decide
  exact hall n (List.mem_range.mpr h)

theorem readUnit_hexDigits {n : Nat} (hn : n < 16 ^ 4) (hne : s ≠ []) :
    readUnit (Text.hexDigits 4 n ++ s) = some (n, s) := by
  obtain ⟨e, t, rfl⟩ := List.exists_cons_of_ne_nil hne
  have hdigits : Text.hexDigits 4 n ++ e :: t = Text.hexDigit (n / 16 / 16 / 16 % 16) ::
      Text.hexDigit (n / 16 / 16 % 16) :: Text.hexDigit (n / 16 % 16) :: Text.hexDigit (n % 16) ::
        e :: t := rfl
  have hvalue (m : Nat) : Text.hexValue? (Text.hexDigit (m % 16)) = some (m % 16) :=
    hexValue?_hexDigit (Nat.mod_lt m (by decide))
  have hsum : ((n / 16 / 16 / 16 % 16 * 16 + n / 16 / 16 % 16) * 16 + n / 16 % 16) * 16 + n % 16 =
      n := by omega
  rw [hdigits, readUnit]
  simp only [hvalue, Option.bind_eq_bind, Option.bind_some, hsum]

theorem readUnicodeEscape_hexDigits {n : Nat} (hn : n < 0xD800) (hne : s ≠ []) :
    readUnicodeEscape (Text.hexDigits 4 n ++ s) = .ok (Char.ofNat n, s) := by
  have hhigh : ¬ isHighUnit n = true := by
    rw [isHighUnit, decide_eq_true_eq]
    omega
  have hchar : charOfUnit n = Char.ofNat n := if_neg (by omega)
  rw [readUnicodeEscape, readUnit_hexDigits (by omega) hne]
  dsimp only
  rw [if_neg hhigh, hchar]

theorem readText_simpleEscape {c e : Char} (he : simpleEscape? e = some c) :
    readText start (fuel + 1) acc ('\\' :: e :: s) = readText start fuel (c :: acc) s := by
  rw [readText, he]
  rintro rfl
  cases he

theorem readText_escapeChar (c : Char) (hne : s ≠ []) :
    readText start (fuel + 1) acc (escapeChar c ++ s) = readText start fuel (c :: acc) s := by
  unfold escapeChar
  split
  · exact readText_simpleEscape rfl
  · exact readText_simpleEscape rfl
  · exact readText_simpleEscape rfl
  · exact readText_simpleEscape rfl
  · exact readText_simpleEscape rfl
  · exact readText_simpleEscape rfl
  · exact readText_simpleEscape rfl
  · next hquote hbackslash _ _ _ _ _ =>
    split_ifs with hcontrol
    · rw [List.cons_append, List.cons_append, readText, readUnicodeEscape_hexDigits (by omega) hne]
      rw [Char.ofNat_toNat]
      rfl
    · rw [List.singleton_append, readText, if_neg hcontrol]
      · exact hquote
      · exact fun h => absurd h hbackslash
      · exact fun _ h => absurd h hbackslash
      · exact fun _ _ h => absurd h hbackslash

theorem readText_flatMap_escapeChar (cs : List Char) : ∀ {fuel : Nat} {acc : List Char},
    cs.length < fuel → readText start fuel acc (cs.flatMap escapeChar ++ '"' :: rest) =
      .ok (String.ofList (acc.reverse ++ cs), rest) := by
  induction cs with
  | nil =>
    intro fuel acc hfuel
    obtain ⟨fuel, rfl⟩ := Nat.exists_eq_succ_of_ne_zero (Nat.ne_zero_of_lt hfuel)
    rw [List.flatMap_nil, List.nil_append, readText, List.append_nil]
  | cons c cs ih =>
    intro fuel acc hfuel
    obtain ⟨fuel, rfl⟩ := Nat.exists_eq_succ_of_ne_zero (Nat.ne_zero_of_lt hfuel)
    rw [List.flatMap_cons, List.append_assoc, readText_escapeChar c (by simp),
      ih (Nat.lt_of_succ_lt_succ hfuel)]
    simp

theorem length_le_flatMap_escapeChar (cs : List Char) :
    cs.length ≤ (cs.flatMap escapeChar).length := by
  induction cs with
  | nil => exact Nat.zero_le _
  | cons c cs ih =>
    have hone : 1 ≤ (escapeChar c).length := by
      unfold escapeChar
      split <;> try exact Nat.le_add_left _ _
      split_ifs <;> exact Nat.le_add_left _ _
    rw [List.flatMap_cons, List.length_append, List.length_cons]
    omega

theorem writeText_append (s : String) (rest : List Char) : (writeText s).toList ++ rest =
    '"' :: (s.toList.flatMap escapeChar ++ '"' :: rest) := by
  rw [writeText, String.toList_ofList]
  simp

theorem readText_writeText (s : String) : readText start
    ('"' :: (s.toList.flatMap escapeChar ++ '"' :: rest)).length []
      (s.toList.flatMap escapeChar ++ '"' :: rest) = .ok (s, rest) := by
  have hlength := length_le_flatMap_escapeChar s.toList
  have hfuel : s.toList.length < ('"' :: (s.toList.flatMap escapeChar ++ '"' :: rest)).length := by
    rw [List.length_cons, List.length_append]
    omega
  rw [readText_flatMap_escapeChar _ hfuel]
  simp

end Strings

section Numbers

/-- The text does not go on with a part of a number. -/
def EndsNumber (s : List Char) : Prop :=
  ∀ c ∈ s.head?, Text.isDigit c = false ∧ c ∉ ['.', 'e', 'E']

variable {s : List Char}

theorem exists_toDigits_eq_cons (n : Nat) :
    ∃ c cs, Nat.toDigits 10 n = c :: cs ∧ Text.isDigit c = true := by
  obtain ⟨c, cs, hdigits⟩ := List.exists_cons_of_ne_nil (Nat.toDigits_ne_nil (b := 10) (n := n))
  exact ⟨c, cs, hdigits, isDigit_of_mem_toDigits (n := n) (hdigits ▸ .head _)⟩

theorem head?_toDigits_ne_zero (n : Nat) : n ≠ 0 → (Nat.toDigits 10 n).head? ≠ some '0' := by
  induction n using Nat.strongRecOn with
  | _ n ih =>
    intro hn
    rw [Nat.toDigits_eq_if (by decide)]
    split
    · next hlt =>
      have hall : ∀ m ∈ List.range 10, m ≠ 0 → [Nat.digitChar m].head? ≠ some '0' := by decide
      exact hall n (List.mem_range.mpr hlt) hn
    · next hge =>
      obtain ⟨c, cs, hdigits, -⟩ := exists_toDigits_eq_cons (n / 10)
      have hhead := ih (n / 10) (by omega) (by omega)
      rw [hdigits] at hhead ⊢
      exact hhead

theorem takeWhile_isDigit_append {digits : List Char} (h : ∀ c ∈ digits, Text.isDigit c = true)
    (hs : ∀ c ∈ s.head?, Text.isDigit c = false) :
    (digits ++ s).takeWhile Text.isDigit = digits := by
  rw [List.takeWhile_append_of_pos h]
  cases s with
  | nil => exact List.append_nil _
  | cons c s => rw [List.takeWhile_cons_of_neg (by simp [hs c rfl]), List.append_nil]

theorem readWhole_append {whole : List Char} (h : Grammar.Whole whole)
    (hs : ∀ c ∈ s.head?, Text.isDigit c = false) : readWhole (whole ++ s) = some (whole, s) := by
  obtain ⟨⟨hne, hdigits⟩, hzero⟩ := h
  obtain ⟨c, cs, rfl⟩ := List.exists_cons_of_ne_nil hne
  have htake := takeWhile_isDigit_append hdigits hs
  rw [List.cons_append] at htake ⊢
  by_cases hc : c = '0'
  · subst hc
    obtain rfl : cs = [] := by simpa using hzero rfl
    rfl
  · rw [readWhole, htake]
    · simp
    · rintro rest ⟨⟩
      exact hc rfl

theorem whole_toDigits (n : Nat) : Grammar.Whole (Nat.toDigits 10 n) := by
  refine ⟨⟨Nat.toDigits_ne_nil, fun c hc => isDigit_of_mem_toDigits hc⟩, fun hhead => ?_⟩
  rcases eq_or_ne n 0 with rfl | hn
  · rfl
  · exact absurd hhead (head?_toDigits_ne_zero n hn)

theorem readFraction_of_head?_ne (hs : s.head? ≠ some '.') : readFraction s = ([], s) := by
  rw [readFraction.eq_def]
  split
  · exact absurd rfl hs
  · rfl

theorem readExponent_of_endsNumber (hs : EndsNumber s) : readExponent s = (none, s) := by
  cases s with
  | nil => rfl
  | cons c s =>
    have hc := (hs c rfl).2
    simp only [List.mem_cons, List.not_mem_nil, or_false, not_or] at hc
    rw [readExponent.eq_def]
    exact if_neg (by simp [hc])

theorem readUnsigned_whole {whole : List Char} (h : Grammar.Whole whole) (hs : EndsNumber s)
    (negative : Bool) : readUnsigned negative (whole ++ s) =
      some (if maxDigits < whole.length then .error (.longInteger whole.length)
        else .ok (int (if negative then -(Text.digitsValue 10 whole : Int)
          else Text.digitsValue 10 whole), s)) := by
  have hpoint : s.head? ≠ some '.' := fun hhead => (hs '.' hhead).2 (.head _)
  rw [readUnsigned, readWhole_append h fun c hc => (hs c hc).1]
  simp only [Option.bind_eq_bind, Option.bind_some, readFraction_of_head?_ne hpoint,
    readExponent_of_endsNumber hs, List.isEmpty_nil, Option.isNone_none, Bool.and_self, if_true]
  split <;> rfl

theorem length_toDigits_le {n k : Nat} (hn : n < Nat.pow 10 k) (hk : 0 < k) :
    (Nat.toDigits 10 n).length ≤ k :=
  (Nat.length_toDigits_le_iff (by decide) hk).mpr hn

theorem readUnsigned_toDigits {n : Nat} (hn : n < Nat.pow 10 maxDigits) (hs : EndsNumber s)
    (negative : Bool) : readUnsigned negative (Nat.toDigits 10 n ++ s) =
      some (.ok (int (if negative then -(n : Int) else n), s)) := by
  have hlength : ¬ maxDigits < (Nat.toDigits 10 n).length :=
    Nat.not_lt.mpr (length_toDigits_le hn (by decide))
  rw [readUnsigned_whole (whole_toDigits n) hs, if_neg hlength, digitsValue_toDigits]

theorem toList_toString (n : Int) : (toString n).toList =
    if n < 0 then '-' :: Nat.toDigits 10 n.natAbs else Nat.toDigits 10 n.natAbs := by
  cases n with
  | ofNat m =>
    rw [if_neg (show ¬ Int.ofNat m < 0 from Int.not_lt.mpr (Int.natCast_nonneg m))]
    exact Nat.toList_repr
  | negSucc m =>
    have hsign : toString (Int.negSucc m) = "-" ++ Nat.repr (m + 1) := rfl
    rw [if_pos (Int.negSucc_lt_zero m), hsign, String.toList_append, Nat.toList_repr]
    rfl

theorem exists_toString_eq_cons (n : Int) :
    ∃ c cs, (toString n).toList = c :: cs ∧ (c = '-' ∨ Text.isDigit c = true) := by
  obtain ⟨c, cs, hdigits, hc⟩ := exists_toDigits_eq_cons n.natAbs
  rw [toList_toString, hdigits]
  split
  · exact ⟨'-', c :: cs, rfl, .inl rfl⟩
  · exact ⟨c, cs, rfl, .inr hc⟩

theorem readNumber_minus {c : Char} {cs : List Char} (hc : Text.isDigit c = true) :
    readNumber ('-' :: c :: cs) = (readUnsigned true (c :: cs)).getD
      (.error (.fault .expectingValue ('-' :: c :: cs).length)) := by
  rw [readNumber]
  rintro rest ⟨⟩
  exact absurd hc (by decide)

theorem readNumber_digit {c : Char} {cs : List Char} (hc : Text.isDigit c = true) :
    readNumber (c :: cs) = (readUnsigned false (c :: cs)).getD
      (.error (.fault .expectingValue (c :: cs).length)) := by
  rw [readNumber]
  · rintro rest ⟨⟩
    exact absurd hc (by decide)
  · rintro rest ⟨⟩
    exact absurd hc (by decide)

theorem readNumber_toString {n : Int} (hn : FewDigits n) (hs : EndsNumber s) :
    readNumber ((toString n).toList ++ s) = .ok (int n, s) := by
  obtain ⟨c, cs, hdigits, hc⟩ := exists_toDigits_eq_cons n.natAbs
  have hread (negative : Bool) := readUnsigned_toDigits hn hs negative
  rw [hdigits] at hread
  rw [toList_toString, hdigits]
  split
  · next hneg =>
    rw [List.cons_append, List.cons_append, readNumber_minus hc, ← List.cons_append, hread,
      Option.getD_some, if_pos rfl, Int.ofNat_natAbs_of_nonpos hneg.le, Int.neg_neg]
  · next hnonneg =>
    rw [List.cons_append, readNumber_digit hc, ← List.cons_append, hread, Option.getD_some,
      if_neg Bool.false_ne_true, Int.natAbs_of_nonneg (Int.not_lt.mp hnonneg)]

theorem readValue_number {fuel : Nat} {c : Char} {cs : List Char}
    (hc : c = '-' ∨ Text.isDigit c = true) :
    readValue (fuel + 1) (c :: cs) = readNumber (c :: cs) := by
  have hother (d : Char) (hd : d ≠ '-' ∧ Text.isDigit d = false) : c ≠ d := by
    rintro rfl
    simp [hd] at hc
  rw [readValue]
  all_goals
    rintro rest ⟨⟩
    exact hother _ (by decide) rfl

end Numbers

section Values

mutual

/-- A value without binary numbers, whose integers have few digits and whose objects have a field of
each name once. -/
def Exact : Json → Prop
  | int n => FewDigits n
  | float _ => False
  | array items => ExactItems items
  | object fields => (fields.map Prod.fst).Nodup ∧ ExactFields fields
  | null | bool _ | text _ => True

def ExactItems : List Json → Prop
  | [] => True
  | v :: rest => Exact v ∧ ExactItems rest

def ExactFields : List (String × Json) → Prop
  | [] => True
  | (_, v) :: rest => Exact v ∧ ExactFields rest

end

theorem exactItems_iff {items : List Json} : ExactItems items ↔ ∀ v ∈ items, Exact v := by
  induction items with
  | nil => simp [ExactItems]
  | cons v rest ih => rw [ExactItems, ih, List.forall_mem_cons]

theorem exactFields_iff {fields : Fields} : ExactFields fields ↔ ∀ f ∈ fields, Exact f.2 := by
  induction fields with
  | nil => simp [ExactFields]
  | cons f rest ih => rw [ExactFields, ih, List.forall_mem_cons]

def parts : Json → List Json
  | array items => items
  | object fields => fields.map Prod.snd
  | _ => []

mutual

@[elab_as_elim]
theorem induct {motive : Json → Prop}
    (step : ∀ v : Json, (∀ w ∈ v.parts, motive w) → motive v) : ∀ v : Json, motive v
  | array items => step _ (inductItems step items)
  | object fields => step _ (inductFields step fields)
  | null | bool _ | int _ | float _ | text _ => step _ (by simp [parts])

theorem inductItems {motive : Json → Prop}
    (step : ∀ v : Json, (∀ w ∈ v.parts, motive w) → motive v) :
    ∀ items : List Json, ∀ w ∈ items, motive w
  | [] => by simp
  | v :: rest => List.forall_mem_cons.mpr ⟨induct step v, inductItems step rest⟩

theorem inductFields {motive : Json → Prop}
    (step : ∀ v : Json, (∀ w ∈ v.parts, motive w) → motive v) :
    ∀ fields : List (String × Json), ∀ w ∈ fields.map Prod.snd, motive w
  | [] => by simp
  | (_, v) :: rest => List.forall_mem_cons.mpr ⟨induct step v, inductFields step rest⟩

end

theorem Exact.of_mem_parts {v w : Json} (hv : v.Exact) (hw : w ∈ v.parts) : w.Exact := by
  cases v with
  | array items => exact exactItems_iff.mp hv w hw
  | object fields =>
    obtain ⟨f, hf, rfl⟩ := List.mem_map.mp hw
    exact exactFields_iff.mp hv.2 f hf
  | _ => cases hw

variable {c : Char} {s : List Char}

theorem skipGap_of_not_isGap (hc : isGap c = false) : skipGap (c :: s) = c :: s :=
  List.dropWhile_cons_of_neg (by simp [hc])

theorem skipGap_blank (s : List Char) : skipGap (' ' :: s) = skipGap s :=
  List.dropWhile_cons_of_pos rfl

theorem endsNumber_cons (hc : Text.isDigit c = false ∧ c ∉ ['.', 'e', 'E']) (s : List Char) :
    EndsNumber (c :: s) := by
  rintro d hd
  obtain rfl := Option.some.inj hd
  exact hc

/-- A blank, a closing bracket or the byte order mark, with which nothing that is written of a value
begins. -/
def NoOpener (c : Char) : Prop := c ∈ [' ', '\t', '\n', '\r', ']', '\ufeff']

instance (c : Char) : Decidable (NoOpener c) := inferInstanceAs (Decidable (c ∈ _))

theorem isGap_of_not_noOpener (hc : ¬ NoOpener c) : isGap c = false := by
  simp only [NoOpener, List.mem_cons, not_or] at hc
  simp [isGap, hc]

theorem not_noOpener_of_number (hc : c = '-' ∨ Text.isDigit c = true) : ¬ NoOpener c := by
  intro hopener
  simp only [NoOpener, List.mem_cons, List.not_mem_nil, or_false] at hopener
  rcases hopener with rfl | rfl | rfl | rfl | rfl | rfl <;> exact absurd hc (by decide)

theorem exists_write_eq_cons {v : Json} (hv : v.Exact) :
    ∃ c cs, v.write.toList = c :: cs ∧ ¬ NoOpener c := by
  cases v with
  | null => exact ⟨_, _, by rw [write]; rfl, by decide⟩
  | bool b => cases b <;> exact ⟨_, _, by rw [write]; rfl, by decide⟩
  | float x => exact hv.elim
  | int n =>
    obtain ⟨c, cs, hcs, hc⟩ := exists_toString_eq_cons n
    exact ⟨c, cs, by rw [write, hcs], not_noOpener_of_number hc⟩
  | text s => exact ⟨_, _, by rw [write, writeText, String.toList_ofList], by decide⟩
  | array items =>
    exact ⟨_, _, by rw [write, String.toList_append, String.toList_append]; rfl, by decide⟩
  | object fields =>
    exact ⟨_, _, by rw [write, String.toList_append, String.toList_append]; rfl, by decide⟩

/-- What is written of the value is read as the value, and what follows is left. -/
def ReadsBack (v : Json) : Prop :=
  ∀ (fuel : Nat) (s : List Char), 2 * v.write.toList.length ≤ fuel → EndsNumber s →
    readValue fuel (v.write.toList ++ s) = .ok (v, s)

def itemChars (items : List Json) : List Char := (Text.join ", " (writeItems items)).toList

theorem itemChars_singleton (v : Json) : itemChars [v] = v.write.toList := by
  rw [itemChars, writeItems, writeItems, Text.join_singleton]

theorem itemChars_cons_cons (v w : Json) (rest : List Json) :
    itemChars (v :: w :: rest) = v.write.toList ++ ',' :: ' ' :: itemChars (w :: rest) := by
  rw [itemChars, writeItems, writeItems, Text.join_cons_cons, itemChars, writeItems,
    String.toList_append, String.toList_append, List.append_assoc]
  rfl

theorem exists_itemChars_eq_cons {v : Json} (hv : v.Exact) (rest : List Json) :
    ∃ c cs, itemChars (v :: rest) = c :: cs ∧ ¬ NoOpener c := by
  obtain ⟨c, cs, hcs, hc⟩ := exists_write_eq_cons hv
  cases rest with
  | nil => exact ⟨c, cs, by rw [itemChars_singleton, hcs], hc⟩
  | cons w rest => exact ⟨c, _, by rw [itemChars_cons_cons, hcs]; rfl, hc⟩

theorem skipGap_itemChars {v : Json} (hv : v.Exact) (rest : List Json) (s : List Char) :
    skipGap (itemChars (v :: rest) ++ s) = itemChars (v :: rest) ++ s := by
  obtain ⟨c, cs, hcs, hc⟩ := exists_itemChars_eq_cons hv rest
  rw [hcs]
  exact skipGap_of_not_isGap (isGap_of_not_noOpener hc)

theorem readItems_last {fuel : Nat} {v : Json} {t : List Char}
    (hv : readValue fuel t = .ok (v, ']' :: s)) : readItems (fuel + 1) t = .ok ([v], s) := by
  rw [readItems, hv]
  rfl

theorem readItems_more {fuel : Nat} {v : Json} {vs : List Json} {t more : List Char}
    (hv : readValue fuel t = .ok (v, ',' :: ' ' :: more)) (hgap : skipGap more = more)
    (hvs : readItems fuel more = .ok (vs, s)) : readItems (fuel + 1) t = .ok (v :: vs, s) := by
  rw [readItems, hv]
  change (do
    let r ← readItems fuel (skipGap (' ' :: more))
    return (v :: r.1, r.2)) = _
  rw [skipGap_blank, hgap, hvs]
  rfl

theorem readItems_itemChars {items : List Json} (hread : ∀ v ∈ items, ReadsBack v)
    (hexact : ∀ v ∈ items, v.Exact) (hne : items ≠ []) :
    ∀ {fuel : Nat}, 2 * (itemChars items).length + 1 ≤ fuel →
      readItems fuel (itemChars items ++ ']' :: s) = .ok (items, s) := by
  induction items with
  | nil => exact absurd rfl hne
  | cons v rest ih =>
    intro fuel hfuel
    obtain ⟨fuel, rfl⟩ := Nat.exists_eq_succ_of_ne_zero (show fuel ≠ 0 by omega)
    rw [List.forall_mem_cons] at hread hexact
    cases rest with
    | nil =>
      rw [itemChars_singleton] at hfuel ⊢
      exact readItems_last (hread.1 _ _ (by omega) (endsNumber_cons (by decide) s))
    | cons w rest =>
      rw [itemChars_cons_cons] at hfuel ⊢
      rw [List.length_append, List.length_cons, List.length_cons] at hfuel
      rw [List.append_assoc]
      exact readItems_more (hread.1 _ _ (by omega) (endsNumber_cons (by decide) _))
        (skipGap_itemChars (hexact.2 w (.head _)) rest _)
        (ih hread.2 hexact.2 (List.cons_ne_nil w rest) (by omega))

def fieldChars (fields : Fields) : List Char := (Text.join ", " (writeFields fields)).toList

theorem fieldChars_singleton (k : String) (v : Json) :
    fieldChars [(k, v)] = (writeText k).toList ++ ':' :: ' ' :: v.write.toList := by
  rw [fieldChars, writeFields, writeFields, Text.join_singleton, String.toList_append,
    String.toList_append, List.append_assoc]
  rfl

theorem fieldChars_cons_cons (k : String) (v : Json) (f : String × Json) (rest : Fields) :
    fieldChars ((k, v) :: f :: rest) = (writeText k).toList ++ ':' :: ' ' :: (v.write.toList ++
      ',' :: ' ' :: fieldChars (f :: rest)) := by
  rw [fieldChars, writeFields, writeFields, Text.join_cons_cons, fieldChars, writeFields]
  simp

theorem skipGap_write {v : Json} (hv : v.Exact) (s : List Char) :
    skipGap (v.write.toList ++ s) = v.write.toList ++ s := by
  obtain ⟨c, cs, hcs, hc⟩ := exists_write_eq_cons hv
  rw [hcs]
  exact skipGap_of_not_isGap (isGap_of_not_noOpener hc)

theorem readFields_field {fuel : Nat} {k : String} {v : Json} {acc : Fields} {t rest : List Char}
    (hgap : skipGap t = t) (hv : readValue fuel t = .ok (v, rest)) :
    readFields (fuel + 1) acc ((writeText k).toList ++ ':' :: ' ' :: t) =
      match skipGap rest with
      | '\x7d' :: after => .ok (Fields.put k v acc, after)
      | ',' :: more => readFields fuel (Fields.put k v acc) (skipGap more)
      | after => .error (.fault .expectingComma after.length) := by
  rw [writeText_append, readFields, readText_writeText]
  change (do
    let r ← readValue fuel (skipGap (' ' :: t))
    match skipGap r.2 with
    | '\x7d' :: after => return (Fields.put k r.1 acc, after)
    | ',' :: more => readFields fuel (Fields.put k r.1 acc) (skipGap more)
    | after => throw (Failure.fault .expectingComma after.length)) = _
  rw [skipGap_blank, hgap, hv]
  rfl

theorem readFields_last {fuel : Nat} {k : String} {v : Json} {acc : Fields} {t : List Char}
    (hgap : skipGap t = t) (hv : readValue fuel t = .ok (v, '\x7d' :: s)) :
    readFields (fuel + 1) acc ((writeText k).toList ++ ':' :: ' ' :: t) =
      .ok (Fields.put k v acc, s) :=
  readFields_field hgap hv

theorem readFields_more {fuel : Nat} {k : String} {v : Json} {acc fields : Fields}
    {t more : List Char} (hgap : skipGap t = t)
    (hv : readValue fuel t = .ok (v, ',' :: ' ' :: more)) (hmore : skipGap more = more)
    (hfields : readFields fuel (Fields.put k v acc) more = .ok (fields, s)) :
    readFields (fuel + 1) acc ((writeText k).toList ++ ':' :: ' ' :: t) = .ok (fields, s) := by
  refine (readFields_field hgap hv).trans ?_
  change readFields fuel (Fields.put k v acc) (skipGap (' ' :: more)) = _
  rw [skipGap_blank, hmore, hfields]

theorem exists_fieldChars_eq_cons (f : String × Json) (rest : Fields) :
    ∃ cs, fieldChars (f :: rest) = '"' :: cs := by
  obtain ⟨k, v⟩ := f
  cases rest with
  | nil => exact ⟨_, by rw [fieldChars_singleton, writeText_append]⟩
  | cons g rest => exact ⟨_, by rw [fieldChars_cons_cons, writeText_append]⟩

theorem skipGap_fieldChars (f : String × Json) (rest : Fields) (s : List Char) :
    skipGap (fieldChars (f :: rest) ++ s) = fieldChars (f :: rest) ++ s := by
  obtain ⟨cs, hcs⟩ := exists_fieldChars_eq_cons f rest
  rw [hcs]
  rfl

theorem readFields_fieldChars {fields : Fields} (hread : ∀ f ∈ fields, ReadsBack f.2)
    (hexact : ∀ f ∈ fields, f.2.Exact) (hne : fields ≠ []) :
    ∀ {fuel : Nat} {acc : Fields}, ((acc ++ fields).map Prod.fst).Nodup →
      2 * (fieldChars fields).length + 1 ≤ fuel →
        readFields fuel acc (fieldChars fields ++ '\x7d' :: s) = .ok (acc ++ fields, s) := by
  induction fields with
  | nil => exact absurd rfl hne
  | cons f rest ih =>
    intro fuel acc hnodup hfuel
    obtain ⟨k, v⟩ := f
    obtain ⟨fuel, rfl⟩ := Nat.exists_eq_succ_of_ne_zero (show fuel ≠ 0 by omega)
    rw [List.forall_mem_cons] at hread hexact
    have hvalue : ReadsBack v := hread.1
    have hput : Fields.put k v acc = acc ++ [(k, v)] := by
      refine Fields.put_of_not_mem fun hk => ?_
      rw [List.map_append, List.map_cons, List.nodup_append] at hnodup
      exact hnodup.2.2 k hk k (.head _) rfl
    cases rest with
    | nil =>
      rw [fieldChars_singleton] at hfuel ⊢
      rw [List.length_append, List.length_cons, List.length_cons] at hfuel
      rw [List.append_assoc, ← hput]
      exact readFields_last (skipGap_write hexact.1 _)
        (hvalue _ _ (by omega) (endsNumber_cons (by decide) s))
    | cons g rest =>
      rw [fieldChars_cons_cons] at hfuel ⊢
      simp only [List.length_append, List.length_cons] at hfuel
      have happend : acc ++ (k, v) :: g :: rest = Fields.put k v acc ++ (g :: rest) := by
        rw [hput, List.append_assoc, List.singleton_append]
      have htext : (writeText k).toList ++ ':' :: ' ' :: (v.write.toList ++
          ',' :: ' ' :: fieldChars (g :: rest)) ++ '\x7d' :: s =
          (writeText k).toList ++ ':' :: ' ' :: (v.write.toList ++
            ',' :: ' ' :: (fieldChars (g :: rest) ++ '\x7d' :: s)) := by simp
      rw [happend] at hnodup ⊢
      rw [htext]
      exact readFields_more (skipGap_write hexact.1 _)
        (hvalue _ _ (by omega) (endsNumber_cons (by decide) _)) (skipGap_fieldChars g rest _)
        (ih hread.2 hexact.2 (List.cons_ne_nil g rest) hnodup (by omega))

theorem toList_write_array (items : List Json) :
    (array items).write.toList = '[' :: (itemChars items ++ [']']) := by
  rw [write, String.toList_append, String.toList_append]
  rfl

theorem toList_write_object (fields : Fields) :
    (object fields).write.toList = '\x7b' :: (fieldChars fields ++ ['\x7d']) := by
  rw [write, String.toList_append, String.toList_append]
  rfl

theorem readValue_array {fuel : Nat} {items : List Json} {t : List Char} (hgap : skipGap t = t)
    (hne : t.head? ≠ some ']') (h : readItems fuel t = .ok (items, s)) :
    readValue (fuel + 1) ('[' :: t) = .ok (array items, s) := by
  rw [readValue, hgap]
  split
  · exact absurd rfl hne
  · rw [h]
    rfl

theorem readValue_object {fuel : Nat} {fields : Fields} {t : List Char} (hgap : skipGap t = t)
    (hne : t.head? ≠ some '\x7d') (h : readFields fuel [] t = .ok (fields, s)) :
    readValue (fuel + 1) ('\x7b' :: t) = .ok (object fields, s) := by
  rw [readValue, hgap]
  split
  · exact absurd rfl hne
  · rw [h]
    rfl

theorem readsBack_array {items : List Json} (hread : ∀ v ∈ items, ReadsBack v)
    (hexact : ∀ v ∈ items, v.Exact) : ReadsBack (array items) := by
  intro fuel s hfuel _
  rw [toList_write_array] at hfuel ⊢
  simp only [List.length_append, List.length_cons] at hfuel
  obtain ⟨fuel, rfl⟩ := Nat.exists_eq_succ_of_ne_zero (show fuel ≠ 0 by omega)
  rw [List.cons_append, List.append_assoc, List.singleton_append]
  cases items with
  | nil => rfl
  | cons v rest =>
    refine readValue_array (skipGap_itemChars (hexact v (.head _)) rest _) ?_
      (readItems_itemChars hread hexact (List.cons_ne_nil v rest) (by omega))
    obtain ⟨c, cs, hcs, hc⟩ := exists_itemChars_eq_cons (hexact v (.head _)) rest
    rw [hcs]
    rintro ⟨⟩
    exact hc (by decide)

theorem readsBack_object {fields : Fields} (hread : ∀ f ∈ fields, ReadsBack f.2)
    (hexact : ∀ f ∈ fields, f.2.Exact) (hnodup : (fields.map Prod.fst).Nodup) :
    ReadsBack (object fields) := by
  intro fuel s hfuel _
  rw [toList_write_object] at hfuel ⊢
  simp only [List.length_append, List.length_cons] at hfuel
  obtain ⟨fuel, rfl⟩ := Nat.exists_eq_succ_of_ne_zero (show fuel ≠ 0 by omega)
  rw [List.cons_append, List.append_assoc, List.singleton_append]
  cases fields with
  | nil => rfl
  | cons f rest =>
    refine readValue_object (skipGap_fieldChars f rest _) ?_ (readFields_fieldChars hread hexact
      (List.cons_ne_nil f rest) (by rwa [List.nil_append]) (by omega))
    obtain ⟨cs, hcs⟩ := exists_fieldChars_eq_cons f rest
    rw [hcs]
    exact nofun

theorem readsBack_of_step {v : Json} (hne : v.write.toList ≠ [])
    (hstep : ∀ fuel s, EndsNumber s → readValue (fuel + 1) (v.write.toList ++ s) = .ok (v, s)) :
    ReadsBack v := by
  intro fuel s hfuel hs
  have hlength := List.length_pos_iff.mpr hne
  obtain ⟨fuel, rfl⟩ := Nat.exists_eq_succ_of_ne_zero (show fuel ≠ 0 by omega)
  exact hstep fuel s hs

/-- Every exact value is read back, whatever follows that is no part of a number. -/
theorem readsBack (v : Json) : v.Exact → ReadsBack v := by
  induction v using Json.induct with
  | step v ih =>
    intro hexact
    have hparts (w : Json) (hw : w ∈ v.parts) : w.Exact ∧ ReadsBack w :=
      ⟨hexact.of_mem_parts hw, ih w hw (hexact.of_mem_parts hw)⟩
    have hne : v.write.toList ≠ [] := by
      obtain ⟨c, cs, hcs, -⟩ := exists_write_eq_cons hexact
      rw [hcs]
      exact List.cons_ne_nil c cs
    cases v with
    | float x => exact hexact.elim
    | array items =>
      exact readsBack_array (fun v hv => (hparts v hv).2) fun v hv => (hparts v hv).1
    | object fields =>
      have hfield (f : String × Json) (hf : f ∈ fields) := hparts f.2 (List.mem_map_of_mem hf)
      exact readsBack_object (fun f hf => (hfield f hf).2) (fun f hf => (hfield f hf).1) hexact.1
    | null => exact readsBack_of_step hne fun fuel s _ => by rw [write]; rfl
    | bool b => exact readsBack_of_step hne fun fuel s _ => by cases b <;> rw [write] <;> rfl
    | int n =>
      refine readsBack_of_step hne fun fuel s hs => ?_
      obtain ⟨c, cs, hcs, hc⟩ := exists_toString_eq_cons n
      have hread := readNumber_toString hexact hs
      rw [hcs] at hread
      rw [write, hcs]
      exact (readValue_number hc).trans hread
    | text t =>
      refine readsBack_of_step hne fun fuel s _ => ?_
      rw [write, writeText_append, readValue, readText_writeText]
      rfl

/-- What is written of an exact value is read as the value. -/
theorem read_write {v : Json} (hv : v.Exact) : read v.write = .ok v := by
  obtain ⟨c, cs, hcs, hc⟩ := exists_write_eq_cons hv
  have hmark : v.write.toList.head? ≠ some '\ufeff' := by
    rw [hcs]
    rintro ⟨⟩
    exact hc (by decide)
  have hgap := skipGap_write hv []
  have hread := readsBack v hv (2 * v.write.toList.length + 2) [] (by omega) nofun
  rw [List.append_nil] at hgap hread
  rw [read, if_neg hmark, readChars, readAll, hgap, hread]
  rfl

end Values

section Line

def NoControl (s : List Char) : Prop := ∀ c ∈ s, 32 ≤ c.toNat

instance (s : List Char) : Decidable (NoControl s) := List.decidableBAll _ s

variable {s t : List Char}

theorem NoControl.append (hs : NoControl s) (ht : NoControl t) : NoControl (s ++ t) :=
  List.forall_mem_append.mpr ⟨hs, ht⟩

theorem NoControl.cons {c : Char} (hc : 32 ≤ c.toNat) (hs : NoControl s) : NoControl (c :: s) :=
  List.forall_mem_cons.mpr ⟨hc, hs⟩

theorem noControl_hexDigits (width n : Nat) : NoControl (Text.hexDigits width n) := by
  have hdigit : ∀ m ∈ List.range 16, 32 ≤ (Text.hexDigit m).toNat := by decide
  induction width generalizing n with
  | zero => exact nofun
  | succ width ih =>
    rw [Text.hexDigits]
    exact (ih _).append (.cons (hdigit _ (List.mem_range.mpr (Nat.mod_lt n (by decide)))) nofun)

theorem noControl_escapeChar (c : Char) : NoControl (escapeChar c) := by
  unfold escapeChar
  split
  iterate 7 exact .cons (by decide) (.cons (by decide) nofun)
  split_ifs with h
  · exact .cons (by decide) (.cons (by decide) (noControl_hexDigits 4 _))
  · exact .cons (Nat.not_lt.mp h) nofun

theorem noControl_writeText (s : String) : NoControl (writeText s).toList := by
  rw [writeText, String.toList_ofList]
  refine .cons (by decide) (.append (fun c hc => ?_) (.cons (by decide) nofun))
  obtain ⟨d, -, hc⟩ := List.mem_flatMap.mp hc
  exact noControl_escapeChar d c hc

theorem noControl_toString (n : Int) : NoControl (toString n).toList := by
  have hdigits : NoControl (Nat.toDigits 10 n.natAbs) := by
    intro c hc
    have hdigit : '0' ≤ c ∧ c ≤ '9' := of_decide_eq_true (isDigit_of_mem_toDigits hc)
    exact Nat.le_trans (by decide) hdigit.1
  rw [toList_toString]
  split
  · exact .cons (by decide) hdigits
  · exact hdigits

theorem noControl_itemChars {items : List Json} (h : ∀ v ∈ items, NoControl v.write.toList) :
    NoControl (itemChars items) := by
  induction items with
  | nil => exact nofun
  | cons v rest ih =>
    rw [List.forall_mem_cons] at h
    cases rest with
    | nil => rw [itemChars_singleton]; exact h.1
    | cons w rest =>
      rw [itemChars_cons_cons]
      exact h.1.append (.cons (by decide) (.cons (by decide) (ih h.2)))

theorem noControl_fieldChars {fields : Fields} (h : ∀ f ∈ fields, NoControl f.2.write.toList) :
    NoControl (fieldChars fields) := by
  induction fields with
  | nil => exact nofun
  | cons f rest ih =>
    obtain ⟨k, v⟩ := f
    rw [List.forall_mem_cons] at h
    have hfield : NoControl (':' :: ' ' :: v.write.toList) :=
      .cons (by decide) (.cons (by decide) h.1)
    cases rest with
    | nil => rw [fieldChars_singleton]; exact (noControl_writeText k).append hfield
    | cons g rest =>
      rw [fieldChars_cons_cons]
      exact (noControl_writeText k).append
        (hfield.append (.cons (by decide) (.cons (by decide) (ih h.2))))

theorem noControl_write (v : Json) : v.Exact → NoControl v.write.toList := by
  induction v using Json.induct with
  | step v ih =>
    intro hexact
    have hparts (w : Json) (hw : w ∈ v.parts) := ih w hw (hexact.of_mem_parts hw)
    cases v with
    | null =>
      rw [write]
      decide
    | bool b => cases b <;> rw [write] <;> decide
    | int n =>
      rw [write]
      exact noControl_toString n
    | float x => exact hexact.elim
    | text t =>
      rw [write]
      exact noControl_writeText t
    | array items =>
      rw [toList_write_array]
      exact .cons (by decide) ((noControl_itemChars hparts).append (.cons (by decide) nofun))
    | object fields =>
      have hfields := noControl_fieldChars fun f hf => hparts f.2 (List.mem_map_of_mem hf)
      rw [toList_write_object]
      exact .cons (by decide) (hfields.append (.cons (by decide) nofun))

end Line

end Json

end AdfMarkdown
