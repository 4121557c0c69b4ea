import AdfMarkdown.Payload
import AdfMarkdown.Proofs.JsonSoundness

/-! # What loading a document can come to

A payload of text or bytes gives a document or an error about it, which tells where reading stopped
or what stands at the root. The one exception is an integer of too many digits, whose error passes
through as it is.
-/

namespace AdfMarkdown.Payload

def IsWritten : Payload → Prop
  | text _ | bytes _ => True
  | value _ => False

def HoldsDigits (n : Nat) : Payload → Prop
  | text s => Json.HasDigits n s.toList
  | bytes b => ∃ s, Json.decode b = .ok s ∧ Json.HasDigits n s
  | value _ => False

/-- The text of the payload is a JSON text with these integer literals, told by their numbers of
digits. -/
def IsJson (literals : List Nat) : Payload → Prop
  | text s => Json.Grammar.Element s.toList literals
  | bytes b => ∃ s, Json.decode b = .ok s ∧ Json.Grammar.Element s literals
  | value _ => False

/-- The document is the object at the root, or the empty one for null. -/
def GivesDocument (p : Payload) : Prop :=
  ∃ fields, p.load = .ok fields ∧
    (p.read = .ok (.object fields) ∨ p.read = .ok .null ∧ fields = emptyDocument)

/-- The error is one about the document. Its context is just the position where reading stopped,
or just the kind of a root that is neither an object nor null. -/
def GivesDocumentError (p : Payload) : Prop :=
  ∃ e error, p.load = .error e ∧ e.toError? = some error ∧ error.errorClass = .document ∧
    ((∃ position : Nat, p.read = .error e ∧ error.context = [("position", .int position)]) ∨
      ∃ v, p.read = .ok v ∧ (∀ fields, v ≠ .object fields) ∧ v ≠ .null ∧
        error.context = [("root_type", .text v.kindName)])

section Reading

theorem read_text_eq (s : String) :
    (text s).read = if s.toList.head? = some '\ufeff' then .error (.malformed .byteOrderMark 0)
      else (Json.readChars s.toList).mapError .ofReadError := by
  rw [read, Json.read]
  split <;> rfl

theorem read_cases {p : Payload} (hp : p.IsWritten) :
    (∃ fault position, p.read = .error (.malformed fault position)) ∨
    (∃ position, p.read = .error (.undecodable position)) ∨
    ∃ s, p.read = (Json.readChars s).mapError .ofReadError ∧
      ∀ n, Json.HasDigits n s → p.HoldsDigits n := by
  cases p with
  | text s =>
    rw [read_text_eq]
    split
    · exact .inl ⟨_, _, rfl⟩
    · exact .inr (.inr ⟨s.toList, rfl, fun n h => h⟩)
  | bytes b =>
    cases hdecode : Json.decode b with
    | ok s =>
      refine .inr (.inr ⟨s, ?_, fun n h => ⟨s, hdecode, h⟩⟩)
      rw [read, hdecode]
    | error position =>
      refine .inr (.inl ⟨position, ?_⟩)
      rw [read, hdecode]
  | value v => exact hp.elim

theorem isWritten_of_read {p : Payload} {v : Json} (h : p.read = .ok v) : p.IsWritten := by
  cases p with
  | text s => trivial
  | bytes b => trivial
  | value w => cases h

theorem short_of_read {p : Payload} {v : Json} (h : p.read = .ok v) : v.Short := by
  rcases read_cases (isWritten_of_read h) with ⟨fault, position, hread⟩ | ⟨position, hread⟩ |
    ⟨s, hread, -⟩
  · rw [hread] at h
    cases h
  · rw [hread] at h
    cases h
  · cases hchars : Json.readChars s with
    | error e =>
      rw [hread, hchars] at h
      cases h
    | ok w =>
      rw [hread, hchars] at h
      exact Except.ok.inj h ▸ Json.short_of_readChars hchars

theorem error_of_read {p : Payload} (hp : p.IsWritten) {e : LoadError} (h : p.read = .error e) :
    (∃ error, e.toError? = some error ∧ error.errorClass = .document ∧
      ∃ position : Nat, error.context = [("position", .int position)]) ∨
    ∃ n, e = .longInteger n ∧ Json.maxDigits < n ∧ p.HoldsDigits n := by
  rcases read_cases hp with ⟨fault, position, hread⟩ | ⟨position, hread⟩ | ⟨s, hread, hdigits⟩
  · obtain rfl := Except.error.inj (hread.symm.trans h)
    exact .inl ⟨_, rfl, rfl, position, rfl⟩
  · obtain rfl := Except.error.inj (hread.symm.trans h)
    exact .inl ⟨_, rfl, rfl, position, rfl⟩
  · rw [hread] at h
    cases hchars : Json.readChars s with
    | ok v =>
      rw [hchars] at h
      cases h
    | error e' =>
      rw [hchars] at h
      obtain rfl := Except.error.inj h
      cases e' with
      | malformed fault position => exact .inl ⟨_, rfl, rfl, position, rfl⟩
      | longInteger n =>
        obtain ⟨hmany, hrun⟩ := Json.hasDigits_of_readChars hchars
        exact .inr ⟨n, rfl, hmany, hdigits n hrun⟩

/-- A JSON text is read, or one of its integer literals has too many digits. -/
theorem read_of_isJson {p : Payload} {literals : List Nat} (hp : p.IsJson literals) :
    (∃ v, p.read = .ok v) ∧ Json.InRange literals ∨
      ∃ n ∈ literals, Json.maxDigits < n ∧ p.read = .error (.longInteger n) := by
  have hchars {s : List Char} (hs : Json.Grammar.Element s literals)
      (hread : p.read = (Json.readChars s).mapError .ofReadError) :
      (∃ v, p.read = .ok v) ∧ Json.InRange literals ∨
        ∃ n ∈ literals, Json.maxDigits < n ∧ p.read = .error (.longInteger n) := by
    rcases Json.readChars_of_element hs with ⟨⟨v, hv⟩, hrange⟩ | ⟨n, hn, hmany, herror⟩
    · exact .inl ⟨⟨v, by rw [hread, hv]; rfl⟩, hrange⟩
    · exact .inr ⟨n, hn, hmany, by rw [hread, herror]; rfl⟩
  cases p with
  | text s =>
    apply hchars hp
    rw [read_text_eq, if_neg (Json.head?_ne_of_element hp)]
  | bytes b =>
    obtain ⟨s, hdecode, hs⟩ := hp
    apply hchars hs
    rw [read, hdecode]
  | value v => exact hp.elim

theorem isJson_of_read {p : Payload} {v : Json} (h : p.read = .ok v) :
    ∃ literals, p.IsJson literals ∧ Json.InRange literals := by
  have hchars {s : List Char} (h : (Json.readChars s).mapError LoadError.ofReadError = .ok v) :
      ∃ literals, Json.Grammar.Element s literals ∧ Json.InRange literals := by
    cases hread : Json.readChars s with
    | ok w => exact Json.element_of_readChars hread
    | error e =>
      rw [hread] at h
      cases h
  cases p with
  | text s =>
    rw [read_text_eq] at h
    split at h
    · cases h
    · exact hchars h
  | bytes b =>
    rw [read] at h
    split at h
    · next s hdecode =>
      obtain ⟨literals, hs, hrange⟩ := hchars h
      exact ⟨literals, ⟨s, hdecode, hs⟩, hrange⟩
    · cases h
  | value w => cases h

theorem read_eq_ok_iff {p : Payload} :
    (∃ v, p.read = .ok v) ↔ ∃ literals, p.IsJson literals ∧ Json.InRange literals := by
  constructor
  · rintro ⟨v, hv⟩
    exact isJson_of_read hv
  · rintro ⟨literals, hp, hrange⟩
    rcases read_of_isJson hp with ⟨hv, -⟩ | ⟨n, hn, hmany, -⟩
    · exact hv
    · exact absurd (hrange n hn) (Nat.not_le.mpr hmany)

end Reading

section Loading

theorem load_of_read_ok {p : Payload} {v : Json} (h : p.read = .ok v) :
    p.load = documentFields v := by
  rw [load, h]
  rfl

theorem load_of_read_error {p : Payload} {e : LoadError} (h : p.read = .error e) :
    p.load = .error e := by
  rw [load, h]
  rfl

theorem documentFields_eq_error {v : Json} (hobject : ∀ fields, v ≠ .object fields)
    (hnull : v ≠ .null) : documentFields v = .error (.notObject v.kindName) := by
  cases v with
  | object fields => exact absurd rfl (hobject fields)
  | null => exact absurd rfl hnull
  | _ => rfl

theorem gives_of_read_ok {p : Payload} {v : Json} (h : p.read = .ok v) :
    p.GivesDocument ∨ p.GivesDocumentError := by
  have hload := load_of_read_ok h
  by_cases hobject : ∃ fields, v = .object fields
  · obtain ⟨fields, rfl⟩ := hobject
    exact .inl ⟨fields, hload, .inl h⟩
  · by_cases hnull : v = .null
    · subst hnull
      exact .inl ⟨emptyDocument, hload, .inr ⟨h, rfl⟩⟩
    · have hobject : ∀ fields, v ≠ .object fields := fun fields hv => hobject ⟨fields, hv⟩
      rw [documentFields_eq_error hobject hnull] at hload
      exact .inr ⟨_, _, hload, rfl, rfl, .inr ⟨v, h, hobject, hnull, rfl⟩⟩

theorem ne_longInteger_of_gives {p : Payload} (h : p.GivesDocument ∨ p.GivesDocumentError)
    (n : Nat) : p.load ≠ .error (.longInteger n) := by
  intro hload
  rcases h with ⟨fields, hfields, -⟩ | ⟨e, error, he, herror, -⟩
  · cases hfields.symm.trans hload
  · obtain rfl := Except.error.inj (he.symm.trans hload)
    cases herror

theorem gives_or_longInteger {p : Payload} (hp : p.IsWritten) :
    (p.GivesDocument ∨ p.GivesDocumentError) ∨
      ∃ n, p.load = .error (.longInteger n) ∧ Json.maxDigits < n ∧ p.HoldsDigits n := by
  cases hread : p.read with
  | ok v => exact .inl (gives_of_read_ok hread)
  | error e =>
    have hload := load_of_read_error hread
    rcases error_of_read hp hread with ⟨error, herror, hclass, position, hcontext⟩ |
      ⟨n, rfl, hmany, hrun⟩
    · exact .inl (.inr ⟨e, error, hload, herror, hclass, .inl ⟨position, hread, hcontext⟩⟩)
    · exact .inr ⟨n, hload, hmany, hrun⟩

theorem gives_iff_inRange {p : Payload} {literals : List Nat} (hp : p.IsJson literals) :
    p.GivesDocument ∨ p.GivesDocumentError ↔ Json.InRange literals := by
  rcases read_of_isJson hp with ⟨⟨v, hv⟩, hrange⟩ | ⟨n, hn, hmany, herror⟩
  · exact iff_of_true (gives_of_read_ok hv) hrange
  · apply iff_of_false
    · exact fun hgives => ne_longInteger_of_gives hgives n (load_of_read_error herror)
    · exact fun hrange => absurd (hrange n hn) (Nat.not_le.mpr hmany)

/-- A payload gives a document or an error about it, unless reading stops at an integer of too many
digits, which stand in the payload. The error of that integer is none about the document. A payload
is read exactly if it is a JSON text whose integer literals have few enough digits, and a JSON text
gives a document or an error about it exactly then. -/
theorem gives_document_iff {p : Payload} (hp : p.IsWritten) :
    (p.GivesDocument ∨ p.GivesDocumentError ↔ ∀ n, p.load ≠ .error (.longInteger n)) ∧
    (∀ n, p.load = .error (.longInteger n) →
      (LoadError.longInteger n).toError? = none ∧ Json.maxDigits < n ∧ p.HoldsDigits n) ∧
    ((∃ v, p.read = .ok v) ↔ ∃ literals, p.IsJson literals ∧ ∀ n ∈ literals, n ≤ Json.maxDigits) ∧
    ∀ literals, p.IsJson literals →
      (p.GivesDocument ∨ p.GivesDocumentError ↔ ∀ n ∈ literals, n ≤ Json.maxDigits) := by
  refine ⟨⟨ne_longInteger_of_gives, fun hnone => ?_⟩, fun n hload => ?_, read_eq_ok_iff,
    fun literals => gives_iff_inRange⟩
  · apply (gives_or_longInteger hp).resolve_right
    rintro ⟨n, hload, -⟩
    exact hnone n hload
  · rcases gives_or_longInteger hp with hgives | ⟨m, hm, hmany, hrun⟩
    · exact absurd hload (ne_longInteger_of_gives hgives n)
    · obtain rfl := LoadError.longInteger.inj (Except.error.inj (hm.symm.trans hload))
      exact ⟨rfl, hmany, hrun⟩

theorem gives_document_iff_list :
    let p := text "[12, \x7b\"a\": -3\x7d]"
    p.IsWritten ∧ (p.GivesDocument ∨ p.GivesDocumentError) ∧
      ∃ literals, p.IsJson literals ∧ ∀ n ∈ literals, n ≤ Json.maxDigits := by
  intro p
  have hwritten : p.IsWritten := trivial
  have hread : ∃ v, p.read = .ok v := by
    have hsome : p.read.toOption.isSome = true := by decide +kernel
    cases h : p.read with
    | ok v => exact ⟨v, rfl⟩
    | error e =>
      rw [h] at hsome
      cases hsome
  obtain ⟨-, -, hjson, hgives⟩ := gives_document_iff hwritten
  obtain ⟨literals, hliterals, hrange⟩ := hjson.mp hread
  exact ⟨hwritten, (hgives literals hliterals).mpr hrange, literals, hliterals, hrange⟩

theorem isJson_ones {n : Nat} (hn : n ≠ 0) :
    (text (String.ofList (List.replicate n '1'))).IsJson [n] := by
  have hwhole : Json.Grammar.Whole (List.replicate n '1') := by
    refine ⟨⟨by simpa using hn, fun c hc => ?_⟩, fun hhead => ?_⟩
    · rw [List.eq_of_mem_replicate hc]
      rfl
    · cases List.eq_of_mem_replicate (List.mem_of_mem_head? hhead)
  have hnumber := @Json.Grammar.Number.integer [] _ (by simp) hwhole
  have helement := Json.Grammar.Element.value (g := []) (h := []) nofun (.number hnumber) nofun
  simpa [IsJson] using helement

/-- A root of one digit too many gives the error of the integer, and none about the document. -/
theorem load_long_root :
    let p := text (String.ofList (List.replicate 4301 '1'))
    p.IsWritten ∧ p.load = .error (.longInteger 4301) ∧
      (LoadError.longInteger 4301).toError? = none ∧
      ¬ (p.GivesDocument ∨ p.GivesDocumentError) := by
  intro p
  have hload : p.load = .error (.longInteger 4301) := by
    have hjson := isJson_ones (n := 4301) (by decide)
    rcases read_of_isJson hjson with ⟨-, hrange⟩ | ⟨n, hn, -, herror⟩
    · exact absurd (hrange 4301 (.head _)) (by decide)
    · obtain rfl := List.mem_singleton.mp hn
      exact load_of_read_error herror
  exact ⟨trivial, hload, rfl, fun hgives => ne_longInteger_of_gives hgives 4301 hload⟩

end Loading

end AdfMarkdown.Payload
