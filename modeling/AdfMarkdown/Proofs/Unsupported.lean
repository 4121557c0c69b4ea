import AdfMarkdown.Proofs.Building
import AdfMarkdown.Proofs.Normalising

/-! # Unsupported blocks are recorded

Some tokens stand as blocks: those at the top, in a quotation and in an item of a list, if the
quotation or the list stands as a block itself. The names recorded are those of the tokens that
stand as blocks and are of a type that has no node.
-/

namespace AdfMarkdown.Token

/-- The type name of the token once it is canonical. -/
def canonicalType (t : Token) : String :=
  if t.name = "block_code" then
    if t.style? = some "indent" then "indented_code" else "block_code"
  else canonicalName t.name

def blockTypes : List String := ["paragraph", "heading", "block_code", "list", "block_quote"]

/-- The token has no node as a block, and is no blank line. -/
def unsupported (t : Token) : Bool := t.name ≠ "blank_line" && t.canonicalType ∉ blockTypes

def isItem (t : Token) : Bool := t.name = "list_item" || t.name = "task_list_item"

theorem isItem_iff {t : Token} :
    t.isItem = true ↔ t.name = "list_item" ∨ t.name = "task_list_item" := by
  rw [isItem, Bool.or_eq_true, decide_eq_true_iff, decide_eq_true_iff]

/-- The tokens right below a block that stand as blocks too. -/
def blockChildren (t : Token) : List Token :=
  if t.name = "block_quote" then t.children
  else if t.name = "list" then (t.children.filter isItem).flatMap children
  else []

/-- The first token stands as a block in the second one, which does. -/
inductive BlockOf : Token → Token → Prop where
  | self (t : Token) : BlockOf t t
  | inner {s t u : Token} : u ∈ t.blockChildren → BlockOf s u → BlockOf s t

theorem blockOf_iff {s t : Token} : s.BlockOf t ↔ s = t ∨ ∃ u ∈ t.blockChildren, s.BlockOf u := by
  constructor
  · intro h
    cases h with
    | self => exact .inl rfl
    | inner hu h => exact .inr ⟨_, hu, h⟩
  · rintro (rfl | ⟨u, hu, h⟩)
    · exact .self s
    · exact .inner hu h

@[elab_as_elim]
theorem induct_blocks {motive : Token → Prop}
    (step : ∀ t : Token, (∀ u ∈ t.blockChildren, motive u) → motive t) (t : Token) : motive t := by
  -- The blocks in a list stand two steps below it.
  suffices hboth : motive t ∧ ∀ u ∈ t.children, motive u from hboth.1
  induction t using Token.induct with
  | step t ih =>
    refine ⟨step t fun u hu => ?_, fun u hu => (ih u hu).1⟩
    rw [blockChildren] at hu
    split at hu
    · exact (ih u hu).1
    split at hu
    · obtain ⟨i, hi, hu⟩ := List.mem_flatMap.mp hu
      exact (ih i (List.mem_filter.mp hi).1).2 u hu
    · cases hu

section Canonical

variable {table : LinkDestination.Table}

theorem canonical?_eq_none_iff {t : Token} : canonical? table t = none ↔ t.name = "blank_line" := by
  obtain ⟨name, raw, style, attrs, children⟩ := t
  rw [canonical?, Token.name]
  split
  · next hblank => simp [hblank]
  · next hblank =>
    split
    · simp [hblank]
    · dsimp only
      split <;> simp [hblank]

theorem canonicalType_of_canonical? {t c : Token} (h : canonical? table t = some c) :
    c.name = t.canonicalType := by
  rcases canonical?_cases h with ⟨hname, rfl⟩ | ⟨hname, -, rfl⟩ | ⟨hname, hc, -⟩
  · rw [canonicalType, if_pos hname]
    rfl
  · rw [canonicalType, if_neg hname]
    rfl
  · rw [hc, canonicalType, if_neg hname]

theorem children_of_canonical? {t c : Token} (h : canonical? table t = some c)
    (hname : c.name ∈ ["block_quote", "list", "list_item"]) :
    c.children = canonicalList table t.children := by
  rcases canonical?_cases h with ⟨-, rfl⟩ | ⟨-, hraw, rfl⟩ | ⟨-, -, -, hchildren⟩
  · rw [canonicalCode, Token.name, codeName] at hname
    split at hname <;> simp at hname
  · rw [leaf, Token.name] at hname
    simp only [List.mem_cons, List.not_mem_nil, or_false] at hname
    rcases hname with hname | hname | hname <;> simp [isRawName, hname] at hraw
  · exact hchildren

theorem canonicalName_ne_empty (name : String) : canonicalName name ≠ "" := by
  unfold canonicalName
  split
  · decide
  · decide
  · decide
  · decide
  · decide
  · next hname _ _ _ _ => exact hname

theorem canonicalType_ne_empty (t : Token) : t.canonicalType ≠ "" := by
  rw [canonicalType]
  split
  · split <;> decide
  · exact canonicalName_ne_empty t.name

theorem canonicalType_eq_iff {t : Token} {s : String} (hs : s ∉ ["indented_code", "block_code"]) :
    t.canonicalType = s ↔ canonicalName t.name = s := by
  by_cases hname : t.name = "block_code"
  · have hcode : canonicalName t.name = "block_code" := by rw [hname]; rfl
    have hleft : t.canonicalType ≠ s := by
      rintro rfl
      rw [canonicalType, if_pos hname] at hs
      split at hs <;> simp at hs
    have hright : canonicalName t.name ≠ s := by
      rintro rfl
      simp [hcode] at hs
    exact iff_of_false hleft hright
  · rw [canonicalType, if_neg hname]

theorem canonicalType_eq_list_iff {t : Token} : t.canonicalType = "list" ↔ t.name = "list" := by
  rw [canonicalType_eq_iff (by simp)]
  exact ⟨eq_of_canonicalName_eq (by simp), fun h => by rw [h]; rfl⟩

theorem canonicalType_eq_block_quote_iff {t : Token} :
    t.canonicalType = "block_quote" ↔ t.name = "block_quote" := by
  rw [canonicalType_eq_iff (by simp)]
  exact ⟨eq_of_canonicalName_eq (by simp), fun h => by rw [h]; rfl⟩

theorem canonicalType_eq_list_item_iff {t : Token} :
    t.canonicalType = "list_item" ↔ t.isItem = true := by
  rw [canonicalType_eq_iff (by simp), isItem_iff]
  constructor
  · intro h
    unfold canonicalName at h
    split at h <;> simp_all
  · rintro (h | h)
    · rw [h]; rfl
    · rw [h]; rfl

/-- What making the token canonical and then a block gives. -/
def blockOf? (table : LinkDestination.Table) (t : Token) : Option Node :=
  (canonical? table t).bind block?

def skippedOf (table : LinkDestination.Table) (t : Token) : List String :=
  (canonical? table t).toList.flatMap skippedInBlock

theorem blocks_canonicalList (ts : List Token) :
    blocks (canonicalList table ts) = ts.filterMap (blockOf? table) := by
  rw [blocks_eq_filterMap, canonicalList_eq_filterMap, List.filterMap_filterMap]
  rfl

theorem skippedInBlocks_canonicalList (ts : List Token) :
    skippedInBlocks (canonicalList table ts) = ts.flatMap (skippedOf table) := by
  induction ts with
  | nil => simp [canonicalList, skippedInBlocks]
  | cons t ts ih =>
    rw [List.flatMap_cons, ← ih, canonicalList, skippedOf]
    cases canonical? table t <;> simp [skippedInBlocks]

def itemOf? (table : LinkDestination.Table) (t : Token) : Option Node :=
  if t.isItem then some (.branch .listItem (t.children.filterMap (blockOf? table)) []) else none

theorem isItem_of_canonical?_none {t : Token} (h : canonical? table t = none) :
    t.isItem = false := by
  simp [isItem, canonical?_eq_none_iff.mp h]

theorem list_item_of_canonical? {t c : Token} (h : canonical? table t = some c) :
    c.name = "list_item" ↔ t.isItem = true := by
  rw [canonicalType_of_canonical? h, canonicalType_eq_list_item_iff]

theorem items_canonicalList (ts : List Token) :
    items (canonicalList table ts) = ts.filterMap (itemOf? table) := by
  induction ts with
  | nil => simp [canonicalList, items]
  | cons t ts ih =>
    rw [canonicalList, List.filterMap_cons, itemOf?, ← ih]
    cases hc : canonical? table t with
    | none => simp [isItem_of_canonical?_none hc]
    | some c =>
      have hname := list_item_of_canonical? hc
      by_cases hitem : t.isItem = true
      · have hchildren := children_of_canonical? hc (by simp [hname.mpr hitem])
        simp [items_eq_map, hname, hitem, item, hchildren, blocks_canonicalList]
      · simp [items_eq_map, hname, hitem]

theorem skippedInItems_canonicalList (ts : List Token) :
    skippedInItems (canonicalList table ts) =
      (ts.filter isItem).flatMap fun i => i.children.flatMap (skippedOf table) := by
  induction ts with
  | nil => simp [canonicalList, skippedInItems]
  | cons t ts ih =>
    rw [canonicalList, List.filter_cons]
    cases hc : canonical? table t with
    | none => simpa [isItem_of_canonical?_none hc] using ih
    | some c =>
      have hname := list_item_of_canonical? hc
      dsimp only
      rw [skippedInItems_cons, ih]
      by_cases hitem : t.isItem = true
      · have hchildren := children_of_canonical? hc (by simp [hname.mpr hitem])
        simp [hname, hitem, hchildren, skippedInBlocks_canonicalList]
      · simp [hname, hitem]

theorem unsupported_eq_false_iff {t : Token} :
    t.unsupported = false ↔ t.name = "blank_line" ∨ t.canonicalType ∈ blockTypes := by
  simp [unsupported, Classical.or_iff_not_imp_left]

theorem unsupported_of_name {t : Token} (h : t.name = "list" ∨ t.name = "block_quote") :
    t.unsupported = false := by
  refine unsupported_eq_false_iff.mpr (.inr ?_)
  rcases h with h | h
  · rw [canonicalType_eq_list_iff.mpr h]
    decide
  · rw [canonicalType_eq_block_quote_iff.mpr h]
    decide

theorem blockChildren_of_unsupported {t : Token} (h : t.unsupported = true) :
    t.blockChildren = [] := by
  have hlist : t.name ≠ "list" := fun hn => by simp [unsupported_of_name (.inl hn)] at h
  have hquote : t.name ≠ "block_quote" := fun hn => by simp [unsupported_of_name (.inr hn)] at h
  rw [blockChildren, if_neg hquote, if_neg hlist]

theorem eq_of_blockOf {s t : Token} (hs : s.BlockOf t) (h : t.unsupported = true) : s = t := by
  rcases blockOf_iff.mp hs with rfl | ⟨u, hu, -⟩
  · rfl
  · simp [blockChildren_of_unsupported h] at hu

/-- Whatever a supported token stands in is supported too. -/
theorem unsupported_eq_false_of_blockOf {s t : Token} (hs : s.BlockOf t)
    (h : s.unsupported = false) : t.unsupported = false := by
  cases ht : t.unsupported with
  | false => rfl
  | true =>
    obtain rfl := eq_of_blockOf hs ht
    rw [h] at ht
    cases ht

theorem exists_canonical_of_name (table : LinkDestination.Table) {t : Token}
    (h : t.name = "list" ∨ t.name = "block_quote") :
    ∃ c, canonical? table t = some c ∧ c.name = t.name ∧
      c.children = canonicalList table t.children := by
  cases hc : canonical? table t with
  | none =>
    rw [canonical?_eq_none_iff.mp hc] at h
    simp at h
  | some c =>
    have hname : c.name = t.name := by
      rw [canonicalType_of_canonical? hc]
      rcases h with h | h
      · rw [canonicalType_eq_list_iff.mpr h, h]
      · rw [canonicalType_eq_block_quote_iff.mpr h, h]
    refine ⟨c, rfl, hname, children_of_canonical? hc ?_⟩
    rw [hname]
    rcases h with h | h <;> simp [h]

theorem skippedOf_list {t : Token} (h : t.name = "list") :
    skippedOf table t =
      (t.children.filter isItem).flatMap fun i => i.children.flatMap (skippedOf table) := by
  obtain ⟨c, hc, hname, hchildren⟩ := exists_canonical_of_name table (.inl h)
  rw [skippedOf, hc, Option.toList_some, List.flatMap_singleton, skippedInBlock_eq]
  simp [hname, h, hchildren, skippedInItems_canonicalList]

theorem skippedOf_quotation {t : Token} (h : t.name = "block_quote") :
    skippedOf table t = t.children.flatMap (skippedOf table) := by
  obtain ⟨c, hc, hname, hchildren⟩ := exists_canonical_of_name table (.inr h)
  rw [skippedOf, hc, Option.toList_some, List.flatMap_singleton, skippedInBlock_eq]
  simp [hname, h, hchildren, skippedInBlocks_canonicalList]

theorem skippedOf_of_name_ne {t : Token} (hlist : t.name ≠ "list")
    (hquote : t.name ≠ "block_quote") :
    skippedOf table t = if t.unsupported then [t.canonicalType] else [] := by
  rw [skippedOf]
  cases hc : canonical? table t with
  | none =>
    have hblank := canonical?_eq_none_iff.mp hc
    simp [unsupported, hblank]
  | some c =>
    have htype := canonicalType_of_canonical? hc
    have hblank : t.name ≠ "blank_line" := by
      intro h
      rw [canonical?_eq_none_iff.mpr h] at hc
      cases hc
    have hnlist : c.name ≠ "list" := fun h => hlist (canonicalType_eq_list_iff.mp (htype ▸ h))
    have hnquote : c.name ≠ "block_quote" :=
      fun h => hquote (canonicalType_eq_block_quote_iff.mp (htype ▸ h))
    have hsupported : c.name ∈ ["paragraph", "heading", "block_code"] ↔ t.unsupported = false := by
      rw [unsupported_eq_false_iff, ← htype]
      simp [hblank, blockTypes, hnlist, hnquote]
    have hself : c.skippedName = t.canonicalType := by
      rw [skippedName, htype, if_neg (canonicalType_ne_empty t)]
    rw [Option.toList_some, List.flatMap_singleton, skippedInBlock_eq, if_neg hnlist,
      if_neg hnquote, hself]
    cases hun : t.unsupported with
    | true => simp [mt hsupported.mp (by simp [hun])]
    | false => simp [hsupported.mpr hun]

/-- An unsupported token is recorded; any other one hands on to the blocks right below it. -/
theorem skippedOf_eq (t : Token) :
    skippedOf table t =
      if t.unsupported then [t.canonicalType]
      else t.blockChildren.flatMap (skippedOf table) := by
  by_cases hlist : t.name = "list"
  · rw [skippedOf_list hlist, unsupported_of_name (.inl hlist)]
    simp [blockChildren, hlist, List.flatMap_assoc]
  by_cases hquote : t.name = "block_quote"
  · rw [skippedOf_quotation hquote, unsupported_of_name (.inr hquote)]
    simp [blockChildren, hquote]
  · rw [skippedOf_of_name_ne hlist hquote]
    simp [blockChildren, hlist, hquote]

/-- A name is recorded exactly if a token of this type stands as a block and is unsupported. -/
theorem mem_skippedOf_iff {name : String} (t : Token) :
    name ∈ skippedOf table t ↔
      ∃ s : Token, s.BlockOf t ∧ s.unsupported = true ∧ s.canonicalType = name := by
  induction t using induct_blocks with
  | step t ih =>
    rw [skippedOf_eq]
    cases hun : t.unsupported with
    | true =>
      rw [if_pos rfl, List.mem_singleton]
      constructor
      · rintro rfl
        exact ⟨t, .self t, hun, rfl⟩
      · rintro ⟨s, hs, -, rfl⟩
        rw [eq_of_blockOf hs hun]
    | false =>
      rw [if_neg (by simp), List.mem_flatMap]
      constructor
      · rintro ⟨u, hu, hname⟩
        obtain ⟨s, hs, hname⟩ := (ih u hu).mp hname
        exact ⟨s, .inner hu hs, hname⟩
      · rintro ⟨s, hs, hname⟩
        rcases blockOf_iff.mp hs with rfl | ⟨u, hu, hs⟩
        · rw [hun] at hname
          cases hname.1
        · exact ⟨u, hu, (ih u hu).mpr ⟨s, hs, hname⟩⟩

end Canonical

end AdfMarkdown.Token
