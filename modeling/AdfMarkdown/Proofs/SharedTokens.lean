import AdfMarkdown.Proofs.Normalising
import AdfMarkdown.Token.Shared

/-! # Raw tokens stay as they are

Making tokens canonical writes to no object that was there before, so the raw tokens are read as
they were. The new tokens are read as the canonical ones.
-/

namespace AdfMarkdown.SharedToken

section Reading

variable {σ τ : Store Fields}

theorem readAttrs?_mono (h : σ.Extends τ) {attrs : Option Nat} {fields : Option Fields}
    (hread : readAttrs? σ attrs = some fields) : readAttrs? τ attrs = some fields := by
  cases attrs with
  | none => exact hread
  | some place =>
    obtain ⟨x, hx, rfl⟩ := Option.map_eq_some_iff.mp hread
    exact Option.map_eq_some_iff.mpr ⟨x, h hx, rfl⟩

mutual

theorem read?_mono (h : σ.Extends τ) : ∀ {t : SharedToken} {u : Token},
    read? σ t = some u → read? τ t = some u
  | mk name raw style attrs children, u, hread => by
    rw [read?] at hread ⊢
    simp only [Option.bind_eq_bind, Option.bind_eq_some_iff] at hread ⊢
    obtain ⟨fields, hfields, us, hus, heq⟩ := hread
    exact ⟨fields, readAttrs?_mono h hfields, us, readChildren?_mono h hus, heq⟩

theorem readChildren?_mono (h : σ.Extends τ) : ∀ {children : Option (List SharedToken)}
    {us : Option (List Token)}, readChildren? σ children = some us →
      readChildren? τ children = some us
  | none, _, hread => by
    rw [readChildren?] at hread ⊢
    exact hread
  | some ts, _, hread => by
    rw [readChildren?, Option.map_eq_some_iff] at hread ⊢
    obtain ⟨us, hus, heq⟩ := hread
    exact ⟨us, readList?_mono h hus, heq⟩

theorem readList?_mono (h : σ.Extends τ) : ∀ {ts : List SharedToken} {us : List Token},
    readList? σ ts = some us → readList? τ ts = some us
  | [], _, hread => by
    rw [readList?] at hread ⊢
    exact hread
  | t :: ts, _, hread => by
    rw [readList?] at hread ⊢
    simp only [Option.bind_eq_bind, Option.bind_eq_some_iff] at hread ⊢
    obtain ⟨u, hu, us, hus, heq⟩ := hread
    exact ⟨u, read?_mono h hu, us, readList?_mono h hus, heq⟩

end

theorem bind_get?_of_readAttrs? {attrs : Option Nat} {fields : Option Fields}
    (h : readAttrs? σ attrs = some fields) : attrs.bind σ.get? = fields := by
  cases attrs with
  | none => exact Option.some.inj h
  | some place =>
    obtain ⟨x, hx, rfl⟩ := Option.map_eq_some_iff.mp h
    exact hx

theorem exists_of_read? {name : String} {raw style : Option String} {attrs : Option Nat}
    {children : Option (List SharedToken)} {u : Token}
    (h : read? σ (mk name raw style attrs children) = some u) :
    ∃ fields us, readAttrs? σ attrs = some fields ∧ readChildren? σ children = some us ∧
      u = .mk name raw style fields us := by
  rw [read?] at h
  simp only [Option.bind_eq_bind, Option.bind_eq_some_iff, Option.some.injEq] at h
  obtain ⟨fields, hfields, us, hus, rfl⟩ := h
  exact ⟨fields, us, hfields, hus, rfl⟩

theorem read?_mk {name : String} {raw style : Option String} {attrs : Option Nat}
    {children : Option (List SharedToken)} {fields : Option Fields} {us : Option (List Token)}
    (hfields : readAttrs? σ attrs = some fields) (hus : readChildren? σ children = some us) :
    read? σ (mk name raw style attrs children) = some (.mk name raw style fields us) := by
  rw [read?, hfields, hus]
  rfl

theorem exists_of_readList?_cons {t : SharedToken} {ts : List SharedToken} {us : List Token}
    (h : readList? σ (t :: ts) = some us) :
    ∃ v vs, read? σ t = some v ∧ readList? σ ts = some vs ∧ us = v :: vs := by
  rw [readList?] at h
  simp only [Option.bind_eq_bind, Option.bind_eq_some_iff, Option.some.injEq] at h
  obtain ⟨v, hv, vs, hvs, rfl⟩ := h
  exact ⟨v, vs, hv, hvs, rfl⟩

theorem soleText?_of_readChildren? {children : Option (List SharedToken)}
    {us : Option (List Token)} (h : readChildren? σ children = some us) :
    soleText? children = Token.soleText? us := by
  rcases children with - | (- | ⟨⟨name, raw, style, attrs, children⟩, ts⟩)
  · rw [readChildren?] at h
    obtain rfl := Option.some.inj h
    rfl
  · rw [readChildren?, readList?] at h
    obtain rfl := Option.some.inj h
    rfl
  · rw [readChildren?, Option.map_eq_some_iff] at h
    obtain ⟨us, hus, rfl⟩ := h
    obtain ⟨v, vs, hv, hvs, rfl⟩ := exists_of_readList?_cons hus
    obtain ⟨fields, kids, -, -, rfl⟩ := exists_of_read? hv
    cases ts with
    | nil =>
      rw [readList?] at hvs
      obtain rfl := Option.some.inj hvs
      rfl
    | cons t ts =>
      obtain ⟨w, ws, -, -, rfl⟩ := exists_of_readList?_cons hvs
      rfl

end Reading

section Attributes

variable (σ : Store Fields) (fields : Option Fields)

theorem extends_addAttrs : σ.Extends (addAttrs σ fields).1 := by
  cases fields with
  | none => exact .refl σ
  | some x => exact σ.extends_add x

theorem readAttrs?_addAttrs :
    readAttrs? (addAttrs σ fields).1 (addAttrs σ fields).2 = some fields := by
  cases fields with
  | none => rfl
  | some x => exact Option.map_eq_some_iff.mpr ⟨x, σ.get?_next_add x, rfl⟩

variable {σ fields}

theorem copyAttrs_cases {attrs : Option Nat} (h : readAttrs? σ attrs = some fields) :
    (fields.getD [] = [] ∧ copyAttrs σ attrs = (σ, none)) ∨
    ∃ x, (fields.getD []).isEmpty = false ∧ fields = some x ∧
      copyAttrs σ attrs = (σ.add x, some σ.next) := by
  rw [copyAttrs, bind_get?_of_readAttrs? h]
  rcases fields with - | (- | ⟨f, fs⟩)
  · exact .inl ⟨rfl, rfl⟩
  · exact .inl ⟨rfl, rfl⟩
  · exact .inr ⟨f :: fs, rfl, rfl, rfl⟩

variable [Url.Coding]

/-- The attributes of a canonical token are a new object: a destination is written to the copy, or
to an empty object where nothing was copied. -/
theorem canonicalAttrs_eq (table : LinkDestination.Table) (name : String) {attrs : Option Nat}
    (h : readAttrs? σ attrs = some fields) (children : Option (List Token)) :
    canonicalAttrs table name attrs (Token.soleText? children) σ =
      addAttrs σ (Token.canonicalAttrs table name fields children) := by
  rw [canonicalAttrs, bind_get?_of_readAttrs? h, Token.canonicalAttrs]
  rcases copyAttrs_cases h with ⟨hnone, hcopy⟩ | ⟨x, hsome, rfl, hcopy⟩
  · rw [hcopy, hnone]
    by_cases hlink : name = "link"
    · simp only [if_pos hlink, ownAttrs, Store.modify_add, addAttrs]
    · simp only [if_neg hlink, List.isEmpty_nil, if_true, addAttrs]
  · rw [hcopy, hsome]
    by_cases hlink : name = "link"
    · simp only [if_pos hlink, ownAttrs, Store.modify_add, addAttrs, Option.getD_some]
    · simp only [if_neg hlink, Bool.false_eq_true, if_false, addAttrs]

end Attributes

section Results

variable {σ τ : Store Fields}

def readKept? (σ : Store Fields) : Option SharedToken → Option (Option Token)
  | none => some none
  | some t => (read? σ t).map some

/-- A result computed from a store: a store in which each object of the first is as it was, and what
is read from it. -/
structure Yields {α β : Type} (σ : Store Fields) (result : Store Fields × α)
    (read : Store Fields → α → Option β) (value : β) : Prop where
  kept : σ.Extends result.1
  shown : read result.1 result.2 = some value

theorem Yields.some {c : SharedToken} {u : Token} (h : σ.Extends τ)
    (hread : read? τ c = .some u) : Yields σ (τ, .some c) readKept? (.some u) :=
  ⟨h, Option.map_eq_some_iff.mpr ⟨u, hread, rfl⟩⟩

theorem readKept?_mono (h : σ.Extends τ) {c : Option SharedToken}
    {u : Option Token} (hread : readKept? σ c = some u) : readKept? τ c = some u := by
  cases c with
  | none => exact hread
  | some t =>
    obtain ⟨v, hv, rfl⟩ := Option.map_eq_some_iff.mp hread
    exact Option.map_eq_some_iff.mpr ⟨v, read?_mono h hv, rfl⟩

theorem readList?_toList_append {c : Option SharedToken} {u : Option Token}
    {cs : List SharedToken} {us : List Token} (hc : readKept? σ c = some u)
    (hcs : readList? σ cs = some us) : readList? σ (c.toList ++ cs) = some (u.toList ++ us) := by
  cases c with
  | none =>
    obtain rfl := Option.some.inj hc
    exact hcs
  | some t =>
    obtain ⟨v, hv, rfl⟩ := Option.map_eq_some_iff.mp hc
    rw [Option.toList_some, List.singleton_append, readList?, hv, hcs]
    rfl

end Results

section Canonical

variable [Url.Coding] {table : LinkDestination.Table}

mutual

theorem yields_canonical? : ∀ {t : SharedToken} {σ : Store Fields} {u : Token},
    read? σ t = some u → Yields σ (canonical? table t σ) readKept? (Token.canonical? table u)
  | mk name raw style attrs children, σ, u, h => by
    obtain ⟨fields, us, hfields, hus, rfl⟩ := exists_of_read? h
    rw [canonical?, Token.canonical?]
    by_cases hblank : name = "blank_line"
    · rw [if_pos hblank, if_pos hblank]
      exact ⟨.refl σ, rfl⟩
    rw [if_neg hblank, if_neg hblank]
    by_cases hcode : name = "block_code"
    · rw [if_pos hcode, if_pos hcode, canonicalCode, bind_get?_of_readAttrs? hfields]
      exact .some (extends_addAttrs σ _)
        (read?_mk (readAttrs?_addAttrs σ _) (by rw [readChildren?]))
    rw [if_neg hcode, if_neg hcode]
    dsimp only
    by_cases hraw : Token.isRawName (Token.canonicalName name) = true
    · rw [if_pos hraw, if_pos hraw]
      exact .some (.refl σ) (read?_mk rfl (by rw [readChildren?]))
    · rw [if_neg hraw, if_neg hraw, soleText?_of_readChildren? hus,
        canonicalAttrs_eq table _ hfields]
      have hattrs := extends_addAttrs σ
        (Token.canonicalAttrs table (Token.canonicalName name) fields us)
      have hchildren := yields_canonicalChildren (readChildren?_mono hattrs hus)
      exact .some (hattrs.trans hchildren.kept)
        (read?_mk (readAttrs?_mono hchildren.kept (readAttrs?_addAttrs σ _)) hchildren.shown)

theorem yields_canonicalChildren : ∀ {children : Option (List SharedToken)} {σ : Store Fields}
    {us : Option (List Token)}, readChildren? σ children = some us →
      Yields σ (canonicalChildren table children σ) readChildren?
        (Token.canonicalChildren table us)
  | none, σ, us, h => by
    rw [readChildren?] at h
    obtain rfl := Option.some.inj h
    rw [canonicalChildren, Token.canonicalChildren]
    exact ⟨.refl σ, rfl⟩
  | some [], σ, us, h => by
    rw [readChildren?, readList?] at h
    obtain rfl := Option.some.inj h
    rw [canonicalChildren, Token.canonicalChildren]
    exact ⟨.refl σ, rfl⟩
  | some (t :: ts), σ, us, h => by
    rw [readChildren?, Option.map_eq_some_iff] at h
    obtain ⟨us, hus, rfl⟩ := h
    have hlist := yields_canonicalList hus
    obtain ⟨v, vs, -, -, rfl⟩ := exists_of_readList?_cons hus
    rw [canonicalChildren, Token.canonicalChildren]
    refine ⟨hlist.kept, ?_⟩
    rw [readChildren?]
    exact Option.map_eq_some_iff.mpr ⟨_, hlist.shown, rfl⟩

theorem yields_canonicalList : ∀ {ts : List SharedToken} {σ : Store Fields} {us : List Token},
    readList? σ ts = some us →
      Yields σ (canonicalList table ts σ) readList? (Token.canonicalList table us)
  | [], σ, us, h => by
    rw [readList?] at h
    obtain rfl := Option.some.inj h
    rw [canonicalList, Token.canonicalList]
    exact ⟨.refl σ, by rw [readList?]⟩
  | t :: ts, σ, us, h => by
    obtain ⟨v, vs, hv, hvs, rfl⟩ := exists_of_readList?_cons h
    have hfirst := yields_canonical? hv
    have hrest := yields_canonicalList (readList?_mono hfirst.kept hvs)
    rw [canonicalList, Token.canonicalList_cons]
    refine ⟨hfirst.kept.trans hrest.kept, ?_⟩
    exact readList?_toList_append (readKept?_mono hrest.kept hfirst.shown) hrest.shown

end

end Canonical

end AdfMarkdown.SharedToken
