import AdfMarkdown.Json.Encoding
import AdfMarkdown.Proofs.Magnitude
import Mathlib.Data.List.Induction
import Mathlib.Data.List.TakeWhile

/-! # What reading JSON can come to

Every reader leaves an end of the text it is given. Besides a fault, only an integer of too many
digits stops it, and these digits stand in the text; so the numbers in a value that is read have
few enough digits.
-/

namespace AdfMarkdown

section Steps

variable {ε α β : Type} {x : Except ε α} {f : α → Except ε β}

theorem exists_of_bind_eq_ok {b : β} (h : x >>= f = .ok b) : ∃ a, x = .ok a ∧ f a = .ok b := by
  cases x with
  | error e => cases h
  | ok a => exact ⟨a, rfl, h⟩

theorem exists_of_bind_eq_error {e : ε} (h : x >>= f = .error e) :
    x = .error e ∨ ∃ a, x = .ok a ∧ f a = .error e := by
  cases x with
  | error e' => exact .inl (congrArg _ (Except.error.inj h))
  | ok a => exact .inr ⟨a, rfl, h⟩

end Steps

namespace Json

def HasDigits (n : Nat) (s : List Char) : Prop :=
  ∃ digits, digits <:+: s ∧ digits.length = n ∧ ∀ c ∈ digits, Text.isDigit c = true

/-- The number is written with at most the digits that are converted. -/
def FewDigits (n : Int) : Prop := n.natAbs < Nat.pow 10 maxDigits

mutual

/-- The integers in the value, and the whole parts of the binary numbers, have few digits. -/
def Short : Json → Prop
  | int n => FewDigits n
  | float x => ∀ n, x.truncate? = some n → FewDigits n
  | array items => ShortItems items
  | object fields => ShortFields fields
  | null | bool _ | text _ => True

def ShortItems : List Json → Prop
  | [] => True
  | v :: rest => Short v ∧ ShortItems rest

def ShortFields : List (String × Json) → Prop
  | [] => True
  | (_, v) :: rest => Short v ∧ ShortFields rest

end

theorem shortItems_iff {items : List Json} : ShortItems items ↔ ∀ v ∈ items, Short v := by
  induction items with
  | nil => simp [ShortItems]
  | cons v rest ih => rw [ShortItems, ih, List.forall_mem_cons]

theorem Short.get? {key : String} {v : Json} : ∀ {fields : Fields},
    ShortFields fields → Fields.get? key fields = some v → Short v
  | (k, w) :: rest, h, hv => by
    rw [Fields.get?] at hv
    split at hv
    · exact Option.some.inj hv ▸ h.1
    · exact Short.get? h.2 hv

theorem ShortFields.put {key : String} {v : Json} (hv : Short v) : ∀ {fields : Fields},
    ShortFields fields → ShortFields (Fields.put key v fields)
  | [], _ => ⟨hv, trivial⟩
  | (k, w) :: rest, h => by
    rw [Fields.put]
    split
    · exact ⟨hv, h.2⟩
    · exact ⟨h.1, ShortFields.put hv h.2⟩

section Reads

variable {α β : Type} {P : α → Prop} {Q : β → Prop}

/-- A reader of the text has found a value with a property and leaves an end of the text, or it has
stopped at a fault or at an integer of too many digits. -/
def Reads (P : α → Prop) (s : List Char) : Except Failure (α × List Char) → Prop
  | .ok (v, rest) => P v ∧ rest <:+ s
  | .error (.fault _ _) => True
  | .error (.longInteger n) => maxDigits < n ∧ HasDigits n s

theorem HasDigits.mono {n : Nat} {s t : List Char} (h : HasDigits n s) (hst : s <:+ t) :
    HasDigits n t := by
  obtain ⟨digits, hwithin, hdigits⟩ := h
  exact ⟨digits, hwithin.trans hst.isInfix, hdigits⟩

theorem Reads.mono {s t : List Char} {r : Except Failure (α × List Char)} (h : Reads P s r)
    (hst : s <:+ t) : Reads P t r := by
  match r, h with
  | .ok (v, rest), h => exact ⟨h.1, h.2.trans hst⟩
  | .error (.fault _ _), _ => trivial
  | .error (.longInteger n), h => exact ⟨h.1, h.2.mono hst⟩

theorem Reads.bind {s : List Char} {r : Except Failure (α × List Char)}
    {f : α × List Char → Except Failure (β × List Char)} (h : Reads P s r)
    (hf : ∀ v rest, P v → rest <:+ s → Reads Q s (f (v, rest))) : Reads Q s (r >>= f) := by
  match r, h with
  | .ok (v, rest), h => exact hf v rest h.1 h.2
  | .error (.fault _ _), _ => trivial
  | .error (.longInteger n), h => exact h

end Reads

theorem skipGap_suffix (s : List Char) : skipGap s <:+ s := List.dropWhile_suffix _

section Strings

theorem readUnit_suffix {s rest : List Char} {n : Nat} (h : readUnit s = some (n, rest)) :
    rest <:+ s := by
  unfold readUnit at h
  split at h
  · next a b c d e more =>
    simp only [Option.bind_eq_bind, Option.bind_eq_some_iff] at h
    obtain ⟨_, -, _, -, _, -, _, -, hrest⟩ := h
    obtain ⟨-, rfl⟩ := Prod.mk.inj (Option.some.inj hrest)
    exact ⟨[a, b, c, d], rfl⟩
  · cases h

theorem reads_readUnicodeEscape (s : List Char) :
    Reads (fun _ => True) s (readUnicodeEscape s) := by
  unfold readUnicodeEscape
  split
  · trivial
  · next n rest hunit =>
    have hrest := readUnit_suffix hunit
    split
    · split
      · next second =>
        split
        · exact ⟨trivial, hrest⟩
        · split
          · trivial
          · next m after hsecond =>
            have hafter := (readUnit_suffix hsecond).trans (List.suffix_append ['\\', 'u'] second)
            split
            · exact ⟨trivial, hafter.trans hrest⟩
            · exact ⟨trivial, hrest⟩
      · exact ⟨trivial, hrest⟩
    · exact ⟨trivial, hrest⟩

theorem reads_readText (start fuel : Nat) : ∀ acc s,
    Reads (fun _ => True) s (readText start fuel acc s) := by
  induction fuel with
  | zero => exact fun _ _ => trivial
  | succ fuel ih =>
    intro acc s
    unfold readText
    split
    · trivial
    · exact ⟨trivial, List.suffix_cons _ _⟩
    · trivial
    · next rest =>
      have hrest : rest <:+ '\\' :: 'u' :: rest := List.suffix_append ['\\', 'u'] rest
      refine Reads.bind ((reads_readUnicodeEscape rest).mono hrest) fun c after _ hafter => ?_
      exact (ih (c :: acc) after).mono hafter
    · next e rest _ =>
      have hrest : rest <:+ '\\' :: e :: rest := List.suffix_append ['\\', e] rest
      split
      · exact (ih _ rest).mono hrest
      · trivial
    · next c rest _ _ _ _ =>
      split
      · trivial
      · exact (ih _ rest).mono (List.suffix_cons c rest)

end Strings

section Numbers

theorem hexValue?_of_isDigit {c : Char} (h : Text.isDigit c = true) :
    ∃ k < 10, Text.hexValue? c = some k := by
  have hc : '0' ≤ c ∧ c ≤ '9' := of_decide_eq_true h
  refine ⟨c.toNat - 48, ?_, if_pos hc⟩
  have hle : c.toNat ≤ 57 := hc.2
  omega

theorem digitsValue_append (base : Nat) (s : List Char) (c : Char) :
    Text.digitsValue base (s ++ [c]) =
      base * Text.digitsValue base s + (Text.hexValue? c).getD 0 := by
  simp [Text.digitsValue]

theorem hexValue?_digitChar {n : Nat} (h : n < 10) : Text.hexValue? (Nat.digitChar n) = some n := by
  have hall : ∀ m ∈ List.range 10, Text.hexValue? (Nat.digitChar m) = some m := by decide
  exact hall n (List.mem_range.mpr h)

theorem digitsValue_toDigits (n : Nat) : Text.digitsValue 10 (Nat.toDigits 10 n) = n := by
  induction n using Nat.strongRecOn with
  | _ n ih =>
    rw [Nat.toDigits_eq_if (by decide)]
    split
    · next hn => simp [Text.digitsValue, hexValue?_digitChar hn]
    · next hn =>
      rw [digitsValue_append, ih (n / 10) (by omega),
        hexValue?_digitChar (Nat.mod_lt n (by decide))]
      exact Nat.div_add_mod n 10

theorem isDigit_of_mem_toDigits {n : Nat} {c : Char} (h : c ∈ Nat.toDigits 10 n) :
    Text.isDigit c = true := by
  simpa [Text.isDigit, Char.isDigit, Char.le_def] using
    Nat.isDigit_of_mem_toDigits (by decide) (by decide) h

theorem digitsValue_lt {digits : List Char} (h : ∀ c ∈ digits, Text.isDigit c = true) :
    Text.digitsValue 10 digits < Nat.pow 10 digits.length := by
  induction digits using List.reverseRecOn with
  | nil => decide
  | append_singleton digits c ih =>
    rw [List.forall_mem_append, List.forall_mem_singleton] at h
    obtain ⟨k, hk, hvalue⟩ := hexValue?_of_isDigit h.2
    have hdigits := ih h.1
    have hpow : Nat.pow 10 (digits.length + 1) = Nat.pow 10 digits.length * 10 := rfl
    rw [digitsValue_append, hvalue, List.length_append, List.length_singleton, hpow,
      Option.getD_some]
    omega

theorem readWhole_eq_some {s whole rest : List Char} (h : readWhole s = some (whole, rest)) :
    s = whole ++ rest ∧ ∀ c ∈ whole, Text.isDigit c = true := by
  unfold readWhole at h
  split at h
  · obtain ⟨rfl, rfl⟩ := Prod.mk.inj (Option.some.inj h)
    exact ⟨rfl, List.forall_mem_singleton.mpr rfl⟩
  · dsimp only at h
    split_ifs at h
    obtain ⟨rfl, rfl⟩ := Prod.mk.inj (Option.some.inj h)
    constructor
    · exact (List.prefix_iff_eq_append.mp (List.takeWhile_prefix _)).symm
    · exact fun c hc => List.mem_takeWhile_imp hc

theorem readFraction_suffix (s : List Char) : (readFraction s).2 <:+ s := by
  unfold readFraction
  split
  · next rest =>
    dsimp only
    split
    · exact List.suffix_refl _
    · exact (List.drop_suffix _ _).trans (List.suffix_cons _ _)
  · exact List.suffix_refl _

theorem readExponent_suffix (s : List Char) : (readExponent s).2 <:+ s := by
  unfold readExponent
  split
  · next e rest =>
    split
    · split
      next negative body hsigned =>
      have hbody : body <:+ e :: rest := by
        split at hsigned
        · obtain ⟨-, rfl⟩ := Prod.mk.inj hsigned
          exact List.suffix_append [e, '-'] _
        · obtain ⟨-, rfl⟩ := Prod.mk.inj hsigned
          exact List.suffix_append [e, '+'] _
        · obtain ⟨-, rfl⟩ := Prod.mk.inj hsigned
          exact List.suffix_cons _ _
      dsimp only
      split
      · exact List.suffix_refl _
      · exact (List.drop_suffix _ body).trans hbody
    · exact List.suffix_refl _
  · exact List.suffix_refl _

theorem maxDigits_large : 1027 ≤ maxDigits := by decide

theorem FewDigits.of_lt_pow_two {n : Int} (h : n.natAbs < Nat.pow 2 maxDigits) : FewDigits n :=
  have hpow (k : Nat) : Nat.pow 2 k ≤ Nat.pow 10 k := Nat.pow_le_pow_left (by decide) k
  Nat.lt_of_lt_of_le h (hpow maxDigits)

theorem FewDigits.of_digits {negative : Bool} {digits : List Char}
    (hdigits : ∀ c ∈ digits, Text.isDigit c = true) (hlength : digits.length ≤ maxDigits) :
    FewDigits
      (if negative then -(Text.digitsValue 10 digits : Int) else Text.digitsValue 10 digits) := by
  have hpow (k : Nat) (hk : digits.length ≤ k) : Nat.pow 10 digits.length ≤ Nat.pow 10 k :=
    Nat.pow_le_pow_right (by decide) hk
  have hvalue := Nat.lt_of_lt_of_le (digitsValue_lt hdigits) (hpow maxDigits hlength)
  cases negative with
  | false => exact (Int.natAbs_natCast _).trans_lt hvalue
  | true => exact ((Int.natAbs_neg _).trans (Int.natAbs_natCast _)).trans_lt hvalue

theorem reads_readUnsigned {negative : Bool} {s : List Char}
    {r : Except Failure (Json × List Char)} (h : readUnsigned negative s = some r) :
    Reads Short s r := by
  unfold readUnsigned at h
  simp only [Option.bind_eq_bind, Option.bind_eq_some_iff] at h
  obtain ⟨⟨whole, afterWhole⟩, hwhole, h⟩ := h
  obtain ⟨rfl, hdigits⟩ := readWhole_eq_some hwhole
  have hrest : (readExponent (readFraction afterWhole).2).2 <:+ whole ++ afterWhole :=
    ((readExponent_suffix _).trans (readFraction_suffix _)).trans (List.suffix_append _ _)
  dsimp only at h
  split at h
  · split at h
    · next hlong =>
      obtain rfl := Option.some.inj h
      exact ⟨hlong, whole, (List.prefix_append _ _).isInfix, rfl, hdigits⟩
    · next hlong =>
      obtain rfl := Option.some.inj h
      exact ⟨.of_digits hdigits (Nat.not_lt.mp hlong), hrest⟩
  · obtain rfl := Option.some.inj h
    refine ⟨fun n hn => ?_, hrest⟩
    exact .of_lt_pow_two (Binary64.natAbs_truncate?_ofDecimal_lt maxDigits_large hn)

theorem reads_readNumber (s : List Char) : Reads Short s (readNumber s) := by
  have hunsigned (negative : Bool) (t : List Char) (ht : t <:+ s) :
      Reads Short s
        ((readUnsigned negative t).getD (.error (.fault .expectingValue s.length))) := by
    cases h : readUnsigned negative t with
    | none => trivial
    | some r => exact (reads_readUnsigned h).mono ht
  unfold readNumber
  dsimp only
  split
  · next rest =>
    exact ⟨nofun, List.suffix_append ['-', 'I', 'n', 'f', 'i', 'n', 'i', 't', 'y'] rest⟩
  · exact hunsigned true _ (List.suffix_cons _ _)
  · exact hunsigned false _ (List.suffix_refl _)

end Numbers

section Values

/-- What each of the three readers of values can come to, with the fuel they have. -/
structure ReadsAll (fuel : Nat) : Prop where
  value : ∀ s, Reads Short s (readValue fuel s)
  items : ∀ s, Reads ShortItems s (readItems fuel s)
  fields : ∀ acc s, ShortFields acc → Reads ShortFields s (readFields fuel acc s)

variable {fuel : Nat}

theorem ReadsAll.readValue_succ (h : ReadsAll fuel) (s : List Char) :
    Reads Short s (readValue (fuel + 1) s) := by
  unfold readValue
  split
  · next rest =>
    refine Reads.bind ((reads_readText _ _ _ rest).mono (List.suffix_cons _ _)) ?_
    exact fun t after _ hafter => ⟨trivial, hafter⟩
  · next rest =>
    have hgap : skipGap rest <:+ '[' :: rest := (skipGap_suffix rest).trans (List.suffix_cons _ _)
    split
    · next after hskip =>
      rw [hskip] at hgap
      exact ⟨trivial, (List.suffix_cons _ _).trans hgap⟩
    · refine Reads.bind ((h.items _).mono hgap) ?_
      exact fun items after hitems hafter => ⟨hitems, hafter⟩
  · next rest =>
    have hgap : skipGap rest <:+ '\x7b' :: rest :=
      (skipGap_suffix rest).trans (List.suffix_cons _ _)
    split
    · next after hskip =>
      rw [hskip] at hgap
      exact ⟨trivial, (List.suffix_cons _ _).trans hgap⟩
    · refine Reads.bind ((h.fields [] _ trivial).mono hgap) ?_
      exact fun fields after hfields hafter => ⟨hfields, hafter⟩
  · exact ⟨trivial, List.suffix_append ['n', 'u', 'l', 'l'] _⟩
  · exact ⟨trivial, List.suffix_append ['t', 'r', 'u', 'e'] _⟩
  · exact ⟨trivial, List.suffix_append ['f', 'a', 'l', 's', 'e'] _⟩
  · exact ⟨nofun, List.suffix_append ['N', 'a', 'N'] _⟩
  · exact ⟨nofun, List.suffix_append ['I', 'n', 'f', 'i', 'n', 'i', 't', 'y'] _⟩
  · exact reads_readNumber s

theorem ReadsAll.readItems_succ (h : ReadsAll fuel) (s : List Char) :
    Reads ShortItems s (readItems (fuel + 1) s) := by
  unfold readItems
  refine Reads.bind (h.value s) fun v rest hv hrest => ?_
  have hgap : skipGap rest <:+ s := (skipGap_suffix rest).trans hrest
  dsimp only
  split
  · next after hskip =>
    rw [hskip] at hgap
    exact ⟨⟨hv, trivial⟩, (List.suffix_cons _ _).trans hgap⟩
  · next more hskip =>
    rw [hskip] at hgap
    have hmore : skipGap more <:+ s :=
      ((skipGap_suffix more).trans (List.suffix_cons _ _)).trans hgap
    refine Reads.bind ((h.items _).mono hmore) ?_
    exact fun vs after hvs hafter => ⟨⟨hv, hvs⟩, hafter⟩
  · trivial

theorem ReadsAll.readFields_succ (h : ReadsAll fuel) (acc : Fields) (s : List Char)
    (hacc : ShortFields acc) : Reads ShortFields s (readFields (fuel + 1) acc s) := by
  unfold readFields
  split
  · next rest =>
    refine Reads.bind ((reads_readText _ _ _ rest).mono (List.suffix_cons _ _)) ?_
    intro k afterName _ hname
    have hgap : skipGap afterName <:+ '"' :: rest := (skipGap_suffix _).trans hname
    dsimp only
    split
    · next body hskip =>
      rw [hskip] at hgap
      have hbody : skipGap body <:+ '"' :: rest :=
        ((skipGap_suffix body).trans (List.suffix_cons _ _)).trans hgap
      refine Reads.bind ((h.value _).mono hbody) fun v afterValue hv hvalue => ?_
      have hacc : ShortFields (Fields.put k v acc) := hacc.put hv
      have hgap : skipGap afterValue <:+ '"' :: rest := (skipGap_suffix _).trans hvalue
      dsimp only
      split
      · next after hskip =>
        rw [hskip] at hgap
        exact ⟨hacc, (List.suffix_cons _ _).trans hgap⟩
      · next more hskip =>
        rw [hskip] at hgap
        exact (h.fields _ _ hacc).mono
          (((skipGap_suffix more).trans (List.suffix_cons _ _)).trans hgap)
      · trivial
    · trivial
  · trivial

theorem readsAll (fuel : Nat) : ReadsAll fuel := by
  induction fuel with
  | zero => exact ⟨fun _ => trivial, fun _ => trivial, fun _ _ _ => trivial⟩
  | succ fuel ih => exact ⟨ih.readValue_succ, ih.readItems_succ, ih.readFields_succ⟩

theorem reads_readAll (s : List Char) : Reads Short s ((readAll s).map (·, [])) := by
  have hvalue := ((readsAll (2 * s.length + 2)).value (skipGap s)).mono (skipGap_suffix s)
  unfold readAll
  match readValue (2 * s.length + 2) (skipGap s), hvalue with
  | .ok (v, rest), h =>
    dsimp only [Bind.bind, Except.bind]
    split
    · exact ⟨h.1, List.nil_suffix⟩
    · trivial
  | .error (.fault _ _), _ => trivial
  | .error (.longInteger n), h => exact h

/-- A value that is read has short numbers only. -/
theorem short_of_readChars {s : List Char} {v : Json} (h : readChars s = .ok v) : Short v := by
  have hreads := reads_readAll s
  unfold readChars at h
  split at h
  · next w hw =>
    obtain rfl := Except.ok.inj h
    rw [hw] at hreads
    exact hreads.1
  · cases h
  · cases h

/-- An integer that stops the reader has too many digits, which stand in the text. -/
theorem hasDigits_of_readChars {s : List Char} {n : Nat}
    (h : readChars s = .error (.longInteger n)) : maxDigits < n ∧ HasDigits n s := by
  have hreads := reads_readAll s
  unfold readChars at h
  split at h
  · cases h
  · cases h
  · next hw =>
    cases h
    rw [hw] at hreads
    exact hreads

end Values

end Json

end AdfMarkdown
