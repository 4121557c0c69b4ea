import AdfMarkdown.Proofs.Normalising
import AdfMarkdown.Proofs.WrittenDestinations
import Mathlib.Data.Bool.AllAny

/-! # Destinations of the links of a text

The table of written destinations has one entry for each encoded form, the first of them. So links
of one text keep the destinations written at them exactly if no two different ones have the same
encoded form.
-/

namespace AdfMarkdown

namespace LinkDestination

/-- An inline link with the text before it, which closes no bracket. Text and destination are not
empty and have neither white space nor brackets of any kind nor backslashes. -/
structure WrittenLink where
  before : List Char
  text : List Char
  destination : List Char
  before_open : ']' ∉ before
  text_ne_nil : text ≠ []
  destination_ne_nil : destination ≠ []
  plain : ∀ c ∈ text ++ destination,
    isPlain c = true ∧ c ≠ '[' ∧ c ≠ ']' ∧ c ≠ '<' ∧ c ≠ '>'

def WrittenLink.source (l : WrittenLink) : List Char :=
  l.before ++ '[' :: (l.text ++ ']' :: '(' :: (l.destination ++ [')']))

section Scanning

theorem inlineFrom_cons_of_ne {c : Char} (h : c ≠ ']') (s : List Char) :
    inlineFrom 0 (c :: s) = inlineFrom 0 s :=
  inlineFrom_cons_of_open fun hprefix => h (List.cons_prefix_cons.mp hprefix).1.symm

theorem inlineFrom_append_of_not_mem {p : List Char} (h : ']' ∉ p) (s : List Char) :
    inlineFrom 0 (p ++ s) = inlineFrom 0 s := by
  induction p with
  | nil => rfl
  | cons c p ih =>
    rw [List.mem_cons, not_or] at h
    rw [List.cons_append, inlineFrom_cons_of_ne (Ne.symm h.1), ih h.2]

theorem inlineFrom_of_not_mem {s : List Char} (h : ']' ∉ s) : inlineFrom 0 s = [] := by
  simpa [inlineFrom] using inlineFrom_append_of_not_mem h []

variable (l : WrittenLink)

theorem WrittenLink.isPlain_destination : ∀ c ∈ l.destination, isPlain c = true :=
  fun c hc => (l.plain c (List.mem_append_right l.text hc)).1

theorem WrittenLink.not_mem_text : ']' ∉ l.text :=
  fun hmem => (l.plain _ (List.mem_append_left l.destination hmem)).2.2.1 rfl

theorem WrittenLink.not_mem_destination {c : Char} (hc : c = '<' ∨ c = ']' ∨ c = '\\') :
    c ∉ l.destination := by
  intro hmem
  obtain ⟨hplain, -, hbracket, hangle, -⟩ := l.plain c (List.mem_append_right l.text hmem)
  rcases hc with rfl | rfl | rfl
  · exact hangle rfl
  · exact hbracket rfl
  · exact absurd hplain (by decide)

theorem inlineFrom_source (rest : List Char) :
    inlineFrom 0 (l.source ++ rest) = l.destination :: inlineFrom 0 rest := by
  have hopen : ']' ∉ l.before ++ '[' :: l.text := by
    rw [List.mem_append, List.mem_cons, not_or, not_or]
    exact ⟨l.before_open, by decide, l.not_mem_text⟩
  have hsource : l.source ++ rest =
      (l.before ++ '[' :: l.text) ++ ']' :: '(' :: (l.destination ++ ')' :: rest) := by
    simp [WrittenLink.source]
  rw [hsource, inlineFrom_append_of_not_mem hopen]
  exact inlineFrom_link_of_plain l.destination_ne_nil l.isPlain_destination
    (l.not_mem_destination (.inl rfl)) rest

theorem inlineFrom_sources (links : List WrittenLink) {after : List Char} (h : ']' ∉ after) :
    inlineFrom 0 (links.flatMap WrittenLink.source ++ after) =
      links.map WrittenLink.destination := by
  induction links with
  | nil => exact inlineFrom_of_not_mem h
  | cons l links ih =>
    rw [List.flatMap_cons, List.append_assoc, inlineFrom_source, ih, List.map_cons]

end Scanning

section Definitions

theorem definitionLabel?_eq_none {s : List Char} (h : ¬ [']', ':'] <:+: s) :
    definitionLabel? s = none := by
  unfold definitionLabel?
  dsimp only
  split
  · next rest hrest =>
    split
    · next body _ hbody =>
      refine absurd ?_ h
      have hwithin : [']', ':'] <:+: rest :=
        (List.IsPrefix.isInfix ⟨body, hbody.symm⟩).trans (List.drop_suffix _ rest).isInfix
      have hdrop : rest <:+: s :=
        ((List.suffix_cons '[' rest).trans (hrest ▸ List.drop_suffix _ s)).isInfix
      exact hwithin.trans hdrop
    · rfl
  · rfl

theorem definitionsFrom_eq_nil : ∀ {s : List Char} (lineStart : Bool), ¬ [']', ':'] <:+: s →
    definitionsFrom lineStart 0 s = []
  | [], _, _ => rfl
  | c :: s, lineStart, h => by
    have hnone : definition? (c :: s) = none := by
      rw [definition?, definitionLabel?_eq_none h]
      rfl
    have hrest : ¬ [']', ':'] <:+: s := fun hs => h (hs.trans (List.suffix_cons c s).isInfix)
    rw [definitionsFrom.eq_def]
    dsimp only
    rw [hnone, ite_self]
    exact definitionsFrom_eq_nil _ hrest

theorem not_infix_append {s t : List Char} (hs : ']' ∉ s) (ht : ¬ [']', ':'] <:+: t) :
    ¬ [']', ':'] <:+: s ++ t := by
  induction s with
  | nil => exact ht
  | cons c s ih =>
    rw [List.mem_cons, not_or] at hs
    rw [List.cons_append, List.infix_cons_iff, not_or]
    refine ⟨?_, ih hs.2⟩
    rw [List.cons_prefix_cons]
    exact fun h => hs.1 h.1

theorem not_infix_source (l : WrittenLink) {rest : List Char} (h : ¬ [']', ':'] <:+: rest) :
    ¬ [']', ':'] <:+: l.source ++ rest := by
  have hsource : l.source ++ rest =
      (l.before ++ '[' :: l.text) ++ ']' :: ('(' :: l.destination ++ [')'] ++ rest) := by
    simp [WrittenLink.source]
  have hopen : ']' ∉ l.before ++ '[' :: l.text := by
    rw [List.mem_append, List.mem_cons, not_or, not_or]
    exact ⟨l.before_open, by decide, l.not_mem_text⟩
  have hclosed : ']' ∉ '(' :: l.destination ++ [')'] := by
    simpa using l.not_mem_destination (.inr (.inl rfl))
  rw [hsource]
  apply not_infix_append hopen
  rw [List.infix_cons_iff, not_or]
  constructor
  · rw [List.cons_prefix_cons, List.append_assoc, List.cons_append, List.cons_prefix_cons]
    exact fun hcolon => absurd hcolon.2.1 (by decide)
  · exact not_infix_append hclosed h

theorem not_infix_sources (links : List WrittenLink) {after : List Char} (h : ']' ∉ after) :
    ¬ [']', ':'] <:+: links.flatMap WrittenLink.source ++ after := by
  induction links with
  | nil =>
    rw [List.flatMap_nil, List.nil_append]
    exact fun hwithin => h (hwithin.subset List.mem_cons_self)
  | cons l links ih =>
    rw [List.flatMap_cons, List.append_assoc]
    exact not_infix_source l ih

end Definitions

section Table

theorem get?_append (key : String) (t u : Table) :
    Table.get? key (t ++ u) = (Table.get? key t).or (Table.get? key u) := by
  rw [Table.get?, List.lookup_append]
  rfl

section Entries

variable [Url.Coding]

def entry (d : List Char) : String × String :=
  (String.ofList (Url.Coding.encode (Url.Coding.unescape d)),
    String.ofList (Url.Coding.unescape d))

theorem get?_entry (key : String) (d : List Char) :
    Table.get? key [entry d] = if (entry d).1 = key then some (entry d).2 else none := by
  rw [Table.get?, List.lookup_cons, List.lookup_nil]
  by_cases h : (entry d).1 = key
  · simp [h]
  · have hne : (key == (entry d).1) = false := beq_false_of_ne (Ne.symm h)
    simp [h, hne]

theorem get?_add (key : String) (t : Table) (d : List Char) :
    Table.get? key (t.add d) = (Table.get? key t).or (Table.get? key [entry d]) := by
  unfold Table.add
  dsimp only
  split
  · next hfound =>
    rw [get?_entry]
    split
    · next hkey =>
      obtain ⟨v, hv⟩ := Option.isSome_iff_exists.mp hfound
      have hv : Table.get? key t = some v := hkey ▸ hv
      rw [hv]
      rfl
    · rw [Option.or_none]
  · exact get?_append key t [entry d]

/-- Of the destinations of one encoded form the table has the first. -/
theorem get?_foldl_add (key : String) (ds : List (List Char)) : ∀ t : Table,
    Table.get? key (ds.foldl Table.add t) = (Table.get? key t).or
      ((ds.find? fun d => (entry d).1 = key).map fun d => (entry d).2) := by
  induction ds with
  | nil => simp
  | cons d ds ih =>
    intro t
    rw [List.foldl_cons, ih, get?_add, get?_entry, Option.or_assoc, List.find?_cons]
    by_cases h : (entry d).1 = key <;> simp [h]

end Entries

theorem entry_eq (d : List Char) :
    entry d = (String.ofList (Url.encode (Url.unescape d)), String.ofList (Url.unescape d)) := rfl

theorem unescape_eq_self {s : List Char} (h : '\\' ∉ s) : Url.unescape s = s := by
  induction s with
  | nil => rfl
  | cons c s ih =>
    rw [List.mem_cons, not_or] at h
    rw [Url.unescape.eq_def]
    dsimp only
    rw [if_neg (Ne.symm h.1), ih h.2]

def WrittenLink.encoded (l : WrittenLink) : String := Url.encodeText (String.ofList l.destination)

theorem WrittenLink.entry_destination (l : WrittenLink) :
    entry l.destination = (l.encoded, String.ofList l.destination) := by
  rw [entry_eq, unescape_eq_self (l.not_mem_destination (.inr (.inr rfl))), encoded, Url.encodeText,
    String.toList_ofList]

end Table

/-- A text with inline links. No bracket is closed after the last one. -/
structure LinkedText where
  links : List WrittenLink
  after : List Char
  after_open : ']' ∉ after

namespace LinkedText

variable (t : LinkedText)

def markdown : String := String.ofList (t.links.flatMap WrittenLink.source ++ t.after)

theorem table_markdown :
    table t.markdown = (t.links.map WrittenLink.destination).foldl Table.add [] := by
  rw [table, markdown, String.toList_ofList, inlineFrom_sources t.links t.after_open,
    definitionsFrom_eq_nil true (not_infix_sources t.links t.after_open), List.append_nil]

/-- The destination of the first link of the text that has the same encoded form. -/
def firstDestination (l : WrittenLink) : List Char :=
  ((t.links.find? fun k => k.encoded = l.encoded).map WrittenLink.destination).getD l.destination

theorem exists_first {l : WrittenLink} (hl : l ∈ t.links) :
    ∃ k ∈ t.links, (t.links.find? fun k => k.encoded = l.encoded) = some k ∧
      k.encoded = l.encoded := by
  obtain ⟨k, hk⟩ : ∃ k, (t.links.find? fun k => k.encoded = l.encoded) = some k := by
    rw [← Option.isSome_iff_exists, List.find?_isSome]
    exact ⟨l, hl, by simp⟩
  exact ⟨k, List.mem_of_find?_eq_some hk, hk, by simpa using List.find?_some hk⟩

theorem get?_table_markdown {l : WrittenLink} (hl : l ∈ t.links) :
    Table.get? l.encoded (table t.markdown) = some (String.ofList (t.firstDestination l)) := by
  obtain ⟨k, -, hfind, -⟩ := t.exists_first hl
  have hentry : ((fun d => decide ((entry d).1 = l.encoded)) ∘ WrittenLink.destination) =
      fun k => decide (k.encoded = l.encoded) := by
    funext k
    simp [k.entry_destination]
  rw [table_markdown, get?_foldl_add, List.find?_map, hentry, hfind, firstDestination, hfind]
  simp [k.entry_destination, Table.get?]

/-- The links have destinations of their own: no two different ones have the same encoded form. -/
def Distinct : Prop :=
  ∀ k ∈ t.links, ∀ l ∈ t.links, k.encoded = l.encoded → k.destination = l.destination

theorem firstDestination_eq_iff :
    (∀ l ∈ t.links, t.firstDestination l = l.destination) ↔ t.Distinct := by
  constructor
  · intro h k hk l hl heq
    calc k.destination = t.firstDestination k := (h k hk).symm
      _ = t.firstDestination l := by
        obtain ⟨j, -, hfind, -⟩ := t.exists_first hl
        rw [firstDestination, firstDestination, heq, hfind]
        rfl
      _ = l.destination := h l hl
  · intro h l hl
    obtain ⟨k, hk, hfind, heq⟩ := t.exists_first hl
    rw [firstDestination, hfind]
    exact h k hk l hl heq

end LinkedText

def WrittenLink.token (l : WrittenLink) (url : String) : Token :=
  .branchWith "link" [("url", .text url)] [.leaf "text" (String.ofList l.text)]

theorem canonical?_token (table : Table) (l : WrittenLink) (url : String) :
    Token.canonical? table (l.token url) =
      some (l.token (Token.writtenUrl table url (some (String.ofList l.text)))) := by
  rfl

theorem token_injective {l : WrittenLink} {url url' : String} (h : l.token url = l.token url') :
    url = url' := by
  have hattr : some (Json.text url) = some (Json.text url') := congrArg (Token.attr? "url") h
  exact Json.text.inj (Option.some.inj hattr)

namespace LinkedText

variable (t : LinkedText)

theorem canonicalList_tokens :
    Token.canonicalList (table t.markdown) (t.links.map fun l => l.token l.encoded) =
      t.links.map fun l => l.token (String.ofList (t.firstDestination l)) := by
  rw [Token.canonicalList_eq_filterMap, List.filterMap_map, ← List.filterMap_eq_map]
  apply List.filterMap_congr
  intro l hl
  rw [Function.comp_apply, canonical?_token, Token.writtenUrl_of_get? (t.get?_table_markdown hl)]
  rfl

/-- Two links whose destinations are spelled differently, but are encoded alike. -/
def clash : LinkedText where
  links := [
    { before := [], text := ['a'], destination := ['ä'], before_open := by decide,
      text_ne_nil := by decide, destination_ne_nil := by decide,
      plain := by rw [← List.all_iff_forall_prop]; decide },
    { before := [' '], text := ['b'], destination := "%C3%A4".toList, before_open := by decide,
      text_ne_nil := by decide, destination_ne_nil := by decide,
      plain := by rw [← List.all_iff_forall_prop]; decide }]
  after := []
  after_open := by decide

end LinkedText

end LinkDestination

end AdfMarkdown
