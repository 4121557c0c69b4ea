import AdfMarkdown.Proofs.Tree
import AdfMarkdown.Token.Canonical

/-! # What a canonical token comes from

A token is left out, becomes a code block, keeps its raw text only, or keeps its attributes and
the canonical tokens of its children. So what holds of each canonical token made from a token
holds everywhere in the canonical tree.
-/

namespace AdfMarkdown.Token

theorem eq_of_canonicalName_eq {name s : String}
    (hs : s ∉ ["unknown", "list_item", "html_block", "paragraph", "html_inline"])
    (h : canonicalName name = s) : name = s := by
  unfold canonicalName at h
  split at h <;> simp_all

theorem infoLanguage_cases (attrs : Option Fields) :
    infoLanguage attrs = none ∨
      ∃ s, s ≠ "" ∧ infoLanguage attrs = some [("language", .text s)] := by
  simp only [infoLanguage]
  split
  · exact .inl rfl
  · next hword => exact .inr ⟨_, by simpa using hword, rfl⟩

variable [Url.Coding] {table : LinkDestination.Table}

theorem writtenUrl_of_get? {url written : String} (h : table.get? url = some written)
    (sole : Option String) : writtenUrl table url sole = written := by
  unfold writtenUrl
  rw [h]

theorem canonicalList_eq_filterMap (ts : List Token) :
    canonicalList table ts = ts.filterMap (canonical? table) := by
  induction ts with
  | nil => simp [canonicalList]
  | cons t ts ih => cases h : canonical? table t <;> simp [canonicalList, h, ih]

theorem canonicalList_cons (t : Token) (ts : List Token) :
    canonicalList table (t :: ts) = (canonical? table t).toList ++ canonicalList table ts := by
  rw [canonicalList]
  cases canonical? table t <;> rfl

theorem getD_canonicalChildren (children : Option (List Token)) :
    (canonicalChildren table children).getD [] = canonicalList table (children.getD []) := by
  rcases children with - | (- | ⟨t, ts⟩) <;> simp [canonicalChildren, canonicalList]

theorem canonical?_cases {t c : Token} (h : canonical? table t = some c) :
    (t.name = "block_code" ∧ c = canonicalCode t.raw? t.style? t.attrs?) ∨
    (t.name ≠ "block_code" ∧ isRawName (canonicalName t.name) = true ∧
      c = leaf (canonicalName t.name) t.raw) ∨
    (t.name ≠ "block_code" ∧ c.name = canonicalName t.name ∧
      c.attrs? = canonicalAttrs table (canonicalName t.name) t.attrs? t.children? ∧
      c.children = canonicalList table t.children) := by
  obtain ⟨name, raw, style, attrs, children⟩ := t
  rw [canonical?] at h
  split at h
  · cases h
  split at h
  · next hname => exact .inl ⟨hname, (Option.some.inj h).symm⟩
  next hname =>
    dsimp only at h
    split at h
    · next hraw => exact .inr (.inl ⟨hname, hraw, (Option.some.inj h).symm⟩)
    · cases h
      exact .inr (.inr ⟨hname, rfl, rfl, getD_canonicalChildren children⟩)

/-- A property that each token hands on to its canonical one holds everywhere below it. -/
theorem everywhere_canonical {P Q : Token → Prop}
    (hP : ∀ t c, Q t → canonical? table t = some c → P c) (t : Token) :
    t.Everywhere Q → ∀ c, canonical? table t = some c → c.Everywhere P := by
  induction t using Token.induct with
  | step t ih =>
    intro hQ c hc
    obtain ⟨hself, hbelow⟩ := everywhere_iff.mp hQ
    refine everywhere_iff.mpr ⟨hP t c hself hc, fun u hu => ?_⟩
    rcases canonical?_cases hc with ⟨-, rfl⟩ | ⟨-, -, rfl⟩ | ⟨-, -, -, hchildren⟩
    · simp [canonicalCode, children, children?] at hu
    · simp [leaf, children, children?] at hu
    · rw [hchildren, canonicalList_eq_filterMap, List.mem_filterMap] at hu
      obtain ⟨s, hs, hu⟩ := hu
      exact ih s hs (hbelow s hs) u hu

theorem forall_mem_canonicalList {P Q : Token → Prop}
    (hP : ∀ t c, Q t → canonical? table t = some c → P c) {ts : List Token}
    (hQ : ∀ t ∈ ts, t.Everywhere Q) : ∀ c ∈ canonicalList table ts, c.Everywhere P := by
  intro c hc
  rw [canonicalList_eq_filterMap, List.mem_filterMap] at hc
  obtain ⟨t, ht, hc⟩ := hc
  exact everywhere_canonical hP t (hQ t ht) c hc

theorem canonical?_language {t c : Token} (hc : canonical? table t = some c)
    (hname : c.name = "block_code") {v : Json} (hv : c.attr? "language" = some v) :
    ∃ s, s ≠ "" ∧ v = .text s := by
  rcases canonical?_cases hc with ⟨-, rfl⟩ | ⟨hn, -, rfl⟩ | ⟨hn, hcn, -, -⟩
  · rw [attr?, canonicalCode, attrs?] at hv
    rcases infoLanguage_cases t.attrs? with hnone | ⟨s, hs, hsome⟩
    · simp [hnone] at hv
    · rw [hsome] at hv
      exact ⟨s, hs, by simpa [Fields.get?, eq_comm] using hv⟩
  · exact absurd (eq_of_canonicalName_eq (by simp) hname) hn
  · exact absurd (eq_of_canonicalName_eq (by simp) (hcn ▸ hname)) hn

theorem canonical?_list {t c : Token} (hc : canonical? table t = some c) (hname : c.name = "list") :
    t.name = "list" ∧ (∀ key, c.attr? key = t.attr? key) ∧
      c.children.length ≤ t.children.length := by
  rcases canonical?_cases hc with ⟨-, rfl⟩ | ⟨-, hraw, rfl⟩ | ⟨-, hcn, hattrs, hchildren⟩
  · rw [canonicalCode, name, codeName] at hname
    split at hname <;> simp at hname
  · rw [show canonicalName t.name = "list" from hname] at hraw
    simp [isRawName] at hraw
  · have hn : canonicalName t.name = "list" := hcn ▸ hname
    refine ⟨eq_of_canonicalName_eq (by simp) hn, fun key => ?_, ?_⟩
    · rw [attr?, attr?, hattrs, hn, canonicalAttrs, if_neg (by decide)]
      split
      · next hempty => rw [List.isEmpty_iff.mp hempty]; rfl
      · rfl
    · rw [hchildren, canonicalList_eq_filterMap]
      exact List.length_filterMap_le _ _

end AdfMarkdown.Token
