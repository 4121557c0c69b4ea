import AdfMarkdown.Proofs.SharedTokens
import Mathlib.Data.List.Forall2

/-! # Links lead where they led

Canonical tokens have the links of the raw ones, in order. A link keeps all its attributes but the
destination, and that one is the raw one or a text that has the raw one as its encoded form. It
holds under any coding: every entry of the table is of this kind, and so is the text of a link that
stands for its own address.
-/

namespace AdfMarkdown

namespace Token

section Links

mutual

/-- The links among a token and those below it, in order. Only below a token of a name that opens
are there any. -/
def links (opens : String → Bool) : Token → List Token
  | mk name raw style attrs children =>
    (if name = "link" then [mk name raw style attrs children] else []) ++
      (if opens name then childLinks opens children else [])

def childLinks (opens : String → Bool) : Option (List Token) → List Token
  | none => []
  | some ts => linksOf opens ts

def linksOf (opens : String → Bool) : List Token → List Token
  | [] => []
  | t :: ts => links opens t ++ linksOf opens ts

end

variable (opens : String → Bool)

theorem linksOf_eq_flatMap (ts : List Token) : linksOf opens ts = ts.flatMap (links opens) := by
  induction ts with
  | nil => simp [linksOf]
  | cons t ts ih => simp [linksOf, ih]

theorem links_eq (t : Token) : links opens t =
    (if t.name = "link" then [t] else []) ++
      (if opens t.name then t.children.flatMap (links opens) else []) := by
  obtain ⟨name, raw, style, attrs, children⟩ := t
  rw [links, ← linksOf_eq_flatMap]
  cases children with
  | none => rw [childLinks]; rfl
  | some ts => rw [childLinks]; rfl

end Links

/-- A canonical token keeps the children of a token of the name: the token is not left out, and
there is more to it than a raw text. -/
def keepsChildren (name : String) : Bool :=
  name != "blank_line" && name != "block_code" && !isRawName (canonicalName name)

theorem canonicalName_eq_link_iff {name : String} :
    canonicalName name = "link" ↔ name = "link" := by
  constructor
  · exact eq_of_canonicalName_eq (by simp)
  · rintro rfl
    rfl

def target (t : Token) : Json := (t.attr? "url").getD (.text "")

theorem forall₂_flatMap {α : Type} {R : Token → Token → Prop} {f g : α → List Token} {as : List α}
    (h : ∀ a ∈ as, List.Forall₂ R (f a) (g a)) :
    List.Forall₂ R (as.flatMap f) (as.flatMap g) := by
  induction as with
  | nil => exact .nil
  | cons a as ih =>
    rw [List.forall_mem_cons] at h
    rw [List.flatMap_cons, List.flatMap_cons]
    exact List.rel_append h.1 (ih h.2)

end Token

variable [Url.Coding]

namespace LinkDestination

def Table.Sound (table : Table) : Prop := ∀ e ∈ table, Url.Coding.encodeText e.2 = e.1

theorem Table.Sound.add {t : Table} (h : t.Sound) (written : List Char) :
    (t.add written).Sound := by
  unfold Table.add
  dsimp only
  split
  · exact h
  · intro e he
    rcases List.mem_append.mp he with he | he
    · exact h e he
    · obtain rfl := List.mem_singleton.mp he
      rw [Url.Coding.encodeText, String.toList_ofList]

theorem Table.Sound.foldl_add {t : Table} (h : t.Sound) (ds : List (List Char)) :
    Table.Sound (ds.foldl Table.add t) := by
  induction ds generalizing t with
  | nil => exact h
  | cons d ds ih => exact ih (h.add d)

theorem sound_table (markdown : String) : (table markdown).Sound :=
  Table.Sound.foldl_add (List.forall_mem_nil _) _

theorem Table.Sound.encodeText_get? {t : Table} (h : t.Sound) {url written : String}
    (hget : t.get? url = some written) : Url.Coding.encodeText written = url := by
  obtain ⟨before, after, rfl, -⟩ := List.lookup_eq_some_iff.mp hget
  exact h (url, written) (by simp)

end LinkDestination

namespace Token

open LinkDestination

/-- The second token is the first one, a link, but for a destination that may have changed to one
that is encoded as it was. -/
structure Restored (raw new : Token) : Prop where
  raw_name : raw.name = "link"
  new_name : new.name = "link"
  url : new.attr? "url" = some raw.target ∨ ∃ written, new.attr? "url" = some (.text written) ∧
    raw.target = .text (Url.Coding.encodeText written)
  others : ∀ key, key ≠ "url" → new.attr? key = raw.attr? key

variable {table : Table}

theorem canonical?_of_keepsChildren (table : Table) {t : Token} (h : keepsChildren t.name = true) :
    ∃ c, canonical? table t = some c ∧ c.name = canonicalName t.name ∧
      c.attrs? = canonicalAttrs table (canonicalName t.name) t.attrs? t.children? ∧
      c.children = canonicalList table t.children := by
  obtain ⟨name, raw, style, attrs, children⟩ := t
  simp only [keepsChildren, Bool.and_eq_true, bne_iff_ne, Bool.not_eq_true'] at h
  obtain ⟨⟨hblank, hcode⟩, hraw⟩ := h
  rw [Token.name] at hblank hcode hraw
  refine ⟨mk (canonicalName name) none none
    (canonicalAttrs table (canonicalName name) attrs children) (canonicalChildren table children),
    ?_, rfl, rfl, getD_canonicalChildren children⟩
  rw [canonical?, if_neg hblank, if_neg hcode]
  exact if_neg (ne_true_of_eq_false hraw)

theorem writtenUrl_cases (h : table.Sound) (url : String) (sole : Option String) :
    writtenUrl table url sole = url ∨
      Url.Coding.encodeText (writtenUrl table url sole) = url := by
  unfold writtenUrl
  split
  · next written hget => exact .inr (h.encodeText_get? hget)
  · split
    · next text =>
      cases hfound : [text, "mailto:" ++ text].find? fun s => Url.Coding.encodeText s == url with
      | none => exact .inl rfl
      | some s =>
        have hencoded := List.find?_some hfound
        exact .inr (by simpa using hencoded)
    · exact .inl rfl

theorem exists_canonical?_of_get? {t : Token} {url written : String} (ht : t.name = "link")
    (hurl : t.attr? "url" = some (.text url)) (hget : table.get? url = some written) :
    ∃ c, canonical? table t = some c ∧ c.name = "link" ∧ c.attr? "url" = some (.text written) := by
  have hkeeps : keepsChildren t.name = true := by rw [ht]; decide
  obtain ⟨c, hc, hname, hattrs, -⟩ := canonical?_of_keepsChildren table hkeeps
  rw [ht] at hname hattrs
  refine ⟨c, hc, hname, ?_⟩
  rw [attr?] at hurl
  rw [attr?, hattrs, canonicalName_eq_link_iff.mpr rfl, canonicalAttrs, if_pos rfl,
    writtenTarget, hurl]
  dsimp only [Option.getD_some]
  rw [writtenUrl_of_get? hget, Fields.get?_put_self]

theorem exists_canonicalAttrs_link (h : table.Sound) (t : Token) :
    ∃ v, canonicalAttrs table "link" t.attrs? t.children? =
        some (Fields.put "url" v (t.attrs?.getD [])) ∧
      (v = t.target ∨ ∃ written, v = .text written ∧
        t.target = .text (Url.Coding.encodeText written)) := by
  refine ⟨_, if_pos rfl, ?_⟩
  have htarget : (Fields.get? "url" (t.attrs?.getD [])).getD (.text "") = t.target := rfl
  rw [writtenTarget, htarget]
  cases t.target with
  | text url =>
    rcases writtenUrl_cases h url (soleText? t.children?) with hsame | hencoded
    · exact .inl (congrArg Json.text hsame)
    · exact .inr ⟨_, rfl, congrArg Json.text hencoded.symm⟩
  | _ => exact .inl rfl

theorem restored_of_attrs? {t c : Token} (h : table.Sound) (ht : t.name = "link")
    (hc : c.name = "link") (hattrs : c.attrs? = canonicalAttrs table "link" t.attrs? t.children?) :
    Restored t c := by
  obtain ⟨v, hput, hv⟩ := exists_canonicalAttrs_link h t
  have hnew (key : String) : c.attr? key =
      Fields.get? key (Fields.put "url" v (t.attrs?.getD [])) := by rw [attr?, hattrs, hput]; rfl
  have hurl : c.attr? "url" = some v := (hnew "url").trans (Fields.get?_put_self _ _ _)
  refine ⟨ht, hc, ?_, fun key hkey => (hnew key).trans (Fields.get?_put_of_ne hkey v _)⟩
  rcases hv with rfl | ⟨written, rfl, htarget⟩
  · exact .inl hurl
  · exact .inr ⟨written, hurl, htarget⟩

theorem linksOf_canonicalList (opens : String → Bool) (ts : List Token) :
    linksOf opens (canonicalList table ts) =
      ts.flatMap fun t => (canonical? table t).toList.flatMap (links opens) := by
  rw [linksOf_eq_flatMap, canonicalList_eq_filterMap, List.filterMap_eq_flatMap_toList,
    List.flatMap_assoc]

/-- A token that does not keep its children shows no links, and neither does its canonical one. -/
theorem links_of_keepsChildren_eq_false (table : Table) {t : Token}
    (h : keepsChildren t.name = false) :
    links keepsChildren t = [] ∧
      (canonical? table t).toList.flatMap (links fun _ => true) = [] := by
  have hlink : t.name ≠ "link" := by
    intro hname
    rw [hname] at h
    cases h
  have hbare {c : Token} (hname : c.name ≠ "link") (hchildren : c.children = []) :
      links (fun _ => true) c = [] := by
    rw [links_eq, if_neg hname, hchildren]
    rfl
  refine ⟨by rw [links_eq, if_neg hlink, h]; rfl, ?_⟩
  obtain ⟨name, raw, style, attrs, children⟩ := t
  rw [Token.name] at h hlink
  rw [canonical?]
  split
  · rfl
  split
  · rw [Option.toList_some, List.flatMap_singleton]
    refine hbare ?_ rfl
    rw [canonicalCode, Token.name, codeName]
    split <;> decide
  dsimp only
  split
  · rw [Option.toList_some, List.flatMap_singleton]
    exact hbare (fun hname => hlink (canonicalName_eq_link_iff.mp hname)) rfl
  · next hblank hcode hraw => simp [keepsChildren, hblank, hcode, hraw] at h

theorem forall₂_links_canonical? (h : table.Sound) (t : Token) :
    List.Forall₂ Restored (links keepsChildren t)
      ((canonical? table t).toList.flatMap (links fun _ => true)) := by
  induction t using Token.induct with
  | step t ih =>
    cases hkeeps : keepsChildren t.name with
    | false =>
      obtain ⟨hraw, hnew⟩ := links_of_keepsChildren_eq_false table hkeeps
      rw [hraw, hnew]
      exact .nil
    | true =>
      obtain ⟨c, hc, hname, hattrs, hchildren⟩ := canonical?_of_keepsChildren table hkeeps
      have hbelow : List.Forall₂ Restored (t.children.flatMap (links keepsChildren))
          (c.children.flatMap (links fun _ => true)) := by
        rw [hchildren, ← linksOf_eq_flatMap (fun _ => true), linksOf_canonicalList]
        exact forall₂_flatMap ih
      rw [hc, Option.toList_some, List.flatMap_singleton, links_eq, links_eq, if_pos hkeeps,
        if_pos rfl]
      refine List.rel_append ?_ hbelow
      by_cases hlink : t.name = "link"
      · have hclink : c.name = "link" := hname.trans (canonicalName_eq_link_iff.mpr hlink)
        rw [if_pos hlink, if_pos hclink]
        refine .cons (restored_of_attrs? h hlink hclink ?_) .nil
        rw [hattrs, hlink]
        rfl
      · rw [if_neg hlink,
          if_neg (hname ▸ fun hclink => hlink (canonicalName_eq_link_iff.mp hclink))]
        exact .nil

/-- The links of canonical tokens, at every depth, are those of the raw tokens but for what lies
below a token that is left out or has a raw text only. Each leads where the raw one led: to the
same destination, or to one that the coding takes to it; all else in it is the same. Every entry of
the table of a text is of this kind. Where the attributes of the raw tokens are objects in a store,
none of them is changed, so the raw tokens are read as before, and the new ones are read as the
canonical tokens. -/
theorem forall₂_restored_links (markdown : String) (raw : List Token) :
    List.Forall₂ Restored (linksOf keepsChildren raw)
      (linksOf (fun _ => true) (canonicalList (LinkDestination.table markdown) raw)) ∧
    (∀ e ∈ LinkDestination.table markdown, Url.Coding.encodeText e.2 = e.1) ∧
    ∀ (σ : Store Fields) (shared : List SharedToken), SharedToken.readList? σ shared = some raw →
      let (τ, new) := SharedToken.canonicalList (LinkDestination.table markdown) shared σ
      σ.Extends τ ∧ SharedToken.readList? τ shared = some raw ∧
        SharedToken.readList? τ new =
          some (canonicalList (LinkDestination.table markdown) raw) := by
  have hsound := sound_table markdown
  refine ⟨?_, hsound, fun σ shared hread => ?_⟩
  · rw [linksOf_canonicalList, linksOf_eq_flatMap]
    exact forall₂_flatMap fun t _ => forall₂_links_canonical? hsound t
  · obtain ⟨hkept, hshown⟩ :=
      @SharedToken.yields_canonicalList _ (LinkDestination.table markdown) _ _ _ hread
    exact ⟨hkept, SharedToken.readList?_mono hkept hread, hshown⟩

omit [Url.Coding] in
/-- Two links with one object for their attributes: the destination is written to a copy of it each
time. -/
theorem forall₂_restored_links_shared :
    let encoded : Fields := [("url", .text "%C3%A4"), ("title", .text "b")]
    let written : Fields := [("url", .text "ä"), ("title", .text "b")]
    let link (place : Nat) : SharedToken :=
      .mk "link" none none (some place) (some [.mk "text" (some "ä") none none none])
    let token (attrs : Fields) : Token := .branchWith "link" attrs [.leaf "text" "ä"]
    let σ : Store Fields := ⟨[encoded]⟩
    let τ : Store Fields := ⟨[encoded, written, written]⟩
    SharedToken.readList? σ [link 0, link 0] = some [token encoded, token encoded] ∧
      σ.Extends τ ∧ SharedToken.readList? τ [link 0, link 0] = some [token encoded, token encoded] ∧
      SharedToken.readList? τ [link 1, link 2] = some [token written, token written] := by
  intro encoded written link token σ τ
  have hread : SharedToken.readList? σ [link 0, link 0] = some [token encoded, token encoded] := rfl
  obtain ⟨-, -, hstore⟩ := forall₂_restored_links "" [token encoded, token encoded]
  have hresult : SharedToken.canonicalList (LinkDestination.table "") [link 0, link 0] σ =
      (τ, [link 1, link 2]) := by rfl
  have hcanonical : canonicalList (LinkDestination.table "") [token encoded, token encoded] =
      [token written, token written] := by rfl
  have hshared := hstore σ [link 0, link 0] hread
  rw [hresult, hcanonical] at hshared
  exact ⟨hread, hshared⟩

end Token

end AdfMarkdown
