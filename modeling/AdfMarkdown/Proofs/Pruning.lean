import AdfMarkdown.Proofs.Unsupported
import Mathlib.Data.List.Basic

/-! # Unsupported blocks disturb nothing

Taking the unsupported tokens out at every place where a token stands as a block leaves the
document the same, and nothing to record.
-/

namespace AdfMarkdown.Token

mutual

/-- The token without the unsupported ones among the blocks below it. -/
def prune : Token → Token
  | mk name raw style attrs children =>
    mk name raw style attrs
      (if name = "block_quote" then pruneChildren children
      else if name = "list" then pruneListChildren children
      else children)

def pruneItem : Token → Token
  | mk name raw style attrs children =>
    mk name raw style attrs
      (if name = "list_item" ∨ name = "task_list_item" then pruneChildren children else children)

def pruneChildren : Option (List Token) → Option (List Token)
  | none => none
  | some ts => some (pruneBlocks ts)

def pruneListChildren : Option (List Token) → Option (List Token)
  | none => none
  | some ts => some (pruneItems ts)

/-- The tokens that stand as blocks, without the unsupported ones at every depth. -/
def pruneBlocks : List Token → List Token
  | [] => []
  | t :: ts => if t.unsupported then pruneBlocks ts else prune t :: pruneBlocks ts

def pruneItems : List Token → List Token
  | [] => []
  | t :: ts => pruneItem t :: pruneItems ts

end

theorem pruneBlocks_eq (ts : List Token) :
    pruneBlocks ts = (ts.filter fun t => !t.unsupported).map prune := by
  induction ts with
  | nil => simp [pruneBlocks]
  | cons t ts ih => cases h : t.unsupported <;> simp [pruneBlocks, h, ih]

theorem pruneItems_eq_map (ts : List Token) : pruneItems ts = ts.map pruneItem := by
  induction ts with
  | nil => simp [pruneItems]
  | cons t ts ih => simp [pruneItems, ih]

theorem getD_pruneChildren (children : Option (List Token)) :
    (pruneChildren children).getD [] = pruneBlocks (children.getD []) := by
  cases children <;> simp [pruneChildren, pruneBlocks]

theorem getD_pruneListChildren (children : Option (List Token)) :
    (pruneListChildren children).getD [] = (children.getD []).map pruneItem := by
  cases children <;> simp [pruneListChildren, pruneItems_eq_map]

@[simp]
theorem name_prune (t : Token) : (prune t).name = t.name := by
  obtain ⟨name, raw, style, attrs, children⟩ := t
  simp [prune, Token.name]

@[simp]
theorem style?_prune (t : Token) : (prune t).style? = t.style? := by
  obtain ⟨name, raw, style, attrs, children⟩ := t
  simp [prune, style?]

@[simp]
theorem attrs?_prune (t : Token) : (prune t).attrs? = t.attrs? := by
  obtain ⟨name, raw, style, attrs, children⟩ := t
  simp [prune, attrs?]

theorem children_prune (t : Token) :
    (prune t).children =
      if t.name = "block_quote" then pruneBlocks t.children
      else if t.name = "list" then t.children.map pruneItem
      else t.children := by
  obtain ⟨name, raw, style, attrs, children⟩ := t
  simp only [prune, Token.name, Token.children, children?]
  rw [apply_ite (fun c => Option.getD c []), apply_ite (fun c => Option.getD c []),
    getD_pruneChildren, getD_pruneListChildren]
  rfl

theorem prune_eq_self {t : Token} (hquote : t.name ≠ "block_quote") (hlist : t.name ≠ "list") :
    prune t = t := by
  obtain ⟨name, raw, style, attrs, children⟩ := t
  rw [Token.name] at hquote hlist
  rw [prune, if_neg hquote, if_neg hlist]

@[simp]
theorem name_pruneItem (t : Token) : (pruneItem t).name = t.name := by
  obtain ⟨name, raw, style, attrs, children⟩ := t
  simp [pruneItem, Token.name]

theorem isItem_pruneItem (t : Token) : (pruneItem t).isItem = t.isItem := by
  rw [isItem, isItem, name_pruneItem]

theorem children_pruneItem {t : Token} (h : t.isItem = true) :
    (pruneItem t).children = pruneBlocks t.children := by
  obtain ⟨name, raw, style, attrs, children⟩ := t
  rw [isItem_iff, Token.name] at h
  rw [pruneItem, if_pos h]
  exact getD_pruneChildren children

@[simp]
theorem unsupported_prune (t : Token) : (prune t).unsupported = t.unsupported := by
  rw [unsupported, unsupported, canonicalType, canonicalType, name_prune, style?_prune]

theorem blockChildren_prune (t : Token) :
    (prune t).blockChildren = pruneBlocks t.blockChildren := by
  rw [blockChildren, blockChildren, name_prune, children_prune]
  split
  · rfl
  split
  · have hitems : ∀ i ∈ t.children.filter isItem, (pruneItem i).children = pruneBlocks i.children :=
      fun i hi => children_pruneItem (List.mem_filter.mp hi).2
    have hfilter : (t.children.map pruneItem).filter isItem =
        (t.children.filter isItem).map pruneItem := by
      rw [List.filter_map]
      congr 1
      exact List.filter_congr fun i _ => isItem_pruneItem i
    rw [hfilter, List.flatMap_map, List.flatMap_congr hitems, pruneBlocks_eq,
      List.filter_flatMap, List.map_flatMap]
    simp only [pruneBlocks_eq]
  · simp [pruneBlocks]

theorem exists_mem_pruneBlocks_iff {s : Token} {ts : List Token}
    (h : ∀ t ∈ ts, t.unsupported = false →
      (s.BlockOf (prune t) ↔ ∃ u : Token, u.BlockOf t ∧ u.unsupported = false ∧ s = prune u)) :
    (∃ t ∈ pruneBlocks ts, s.BlockOf t) ↔
      ∃ t ∈ ts, ∃ u : Token, u.BlockOf t ∧ u.unsupported = false ∧ s = prune u := by
  rw [pruneBlocks_eq]
  constructor
  · rintro ⟨v, hv, hs⟩
    obtain ⟨t, ht, rfl⟩ := List.mem_map.mp hv
    rw [List.mem_filter, Bool.not_eq_true'] at ht
    exact ⟨t, ht.1, (h t ht.1 ht.2).mp hs⟩
  · rintro ⟨t, ht, u, hu, hsupported, hs⟩
    have htop := unsupported_eq_false_of_blockOf hu hsupported
    refine ⟨prune t, List.mem_map_of_mem ?_, (h t ht htop).mpr ⟨u, hu, hsupported, hs⟩⟩
    rw [List.mem_filter, Bool.not_eq_true']
    exact ⟨ht, htop⟩

/-- The blocks in a pruned token are exactly the supported ones in the token, each pruned. -/
theorem blockOf_prune_iff {s : Token} (t : Token) : t.unsupported = false →
    (s.BlockOf (prune t) ↔ ∃ u : Token, u.BlockOf t ∧ u.unsupported = false ∧ s = prune u) := by
  induction t using induct_blocks with
  | step t ih =>
    intro hun
    rw [blockOf_iff, blockChildren_prune, exists_mem_pruneBlocks_iff ih]
    constructor
    · rintro (rfl | ⟨w, hw, u, hu, hsu⟩)
      · exact ⟨t, .self t, hun, rfl⟩
      · exact ⟨u, .inner hw hu, hsu⟩
    · rintro ⟨u, hu, hsu⟩
      rcases blockOf_iff.mp hu with rfl | ⟨w, hw, hu⟩
      · exact .inl hsu.2
      · exact .inr ⟨w, hw, u, hu, hsu⟩

section Canonical

variable {table : LinkDestination.Table}

theorem blockOf?_of_unsupported {t : Token} (h : t.unsupported = true) :
    blockOf? table t = none := by
  rw [blockOf?]
  cases hc : canonical? table t with
  | none => rfl
  | some c =>
    have htype := canonicalType_of_canonical? hc
    have hother : c.name ∉ blockTypes := by
      rw [htype]
      intro hmem
      simp [unsupported, hmem] at h
    simp only [blockTypes, List.mem_cons, List.not_mem_nil, or_false, not_or] at hother
    obtain ⟨hpara, hhead, hcode, hlist, hquote⟩ := hother
    rw [Option.bind_some, block?_eq, if_neg hpara, if_neg hhead, if_neg hcode, if_neg hlist,
      if_neg hquote]

theorem blockOf?_quotation {t : Token} (hname : t.name = "block_quote") :
    blockOf? table t =
      some (.branch .blockquote (t.children.filterMap (blockOf? table)) []) := by
  obtain ⟨c, hc, hcn, hchildren⟩ := exists_canonical_of_name table (.inr hname)
  rw [blockOf?, hc, Option.bind_some, block?_eq]
  simp [hcn, hname, quotation, hchildren, blocks_canonicalList]

theorem listAttrs_congr {t u : Token} (h : ∀ key, t.attr? key = u.attr? key) :
    t.ordered = u.ordered ∧ t.listAttrs = u.listAttrs := by
  have hordered : t.ordered = u.ordered := by rw [ordered, ordered, h]
  exact ⟨hordered, by rw [listAttrs, listAttrs, h, hordered]⟩

theorem blockOf?_list {t : Token} (hname : t.name = "list") :
    blockOf? table t =
      some (.branch (if t.ordered then .orderedList else .bulletList)
        (t.children.filterMap (itemOf? table)) t.listAttrs) := by
  obtain ⟨c, hc, hcn, hchildren⟩ := exists_canonical_of_name table (.inl hname)
  obtain ⟨-, hattrs, -⟩ := canonical?_list hc (hcn.trans hname)
  obtain ⟨hordered, hlistAttrs⟩ := listAttrs_congr hattrs
  rw [blockOf?, hc, Option.bind_some, block?_eq]
  simp [hcn, hname, list, hchildren, items_canonicalList, hordered, hlistAttrs]

theorem filterMap_pruneBlocks {ts : List Token}
    (h : ∀ t ∈ ts, blockOf? table (prune t) = blockOf? table t) :
    (pruneBlocks ts).filterMap (blockOf? table) = ts.filterMap (blockOf? table) := by
  induction ts with
  | nil => simp [pruneBlocks]
  | cons t ts ih =>
    have hrest := ih fun u hu => h u (.tail t hu)
    rw [pruneBlocks, List.filterMap_cons]
    cases hun : t.unsupported with
    | true => simpa [blockOf?_of_unsupported hun] using hrest
    | false => simp [List.filterMap_cons, h t (.head ts), hrest]

theorem blockOf?_prune (t : Token) : blockOf? table (prune t) = blockOf? table t := by
  induction t using induct_blocks with
  | step t ih =>
    by_cases hquote : t.name = "block_quote"
    · have hbelow : ∀ u ∈ t.children, blockOf? table (prune u) = blockOf? table u := by
        simpa [blockChildren, hquote] using ih
      rw [blockOf?_quotation hquote, blockOf?_quotation (by simp [hquote]), children_prune,
        if_pos hquote, filterMap_pruneBlocks hbelow]
    by_cases hlist : t.name = "list"
    · have hitems : t.children.filterMap (itemOf? table ∘ pruneItem) =
          t.children.filterMap (itemOf? table) := by
        refine List.filterMap_congr fun i hi => ?_
        rw [Function.comp_apply, itemOf?, itemOf?, isItem_pruneItem]
        split
        · next hitem =>
          have hbelow : ∀ u ∈ i.children, blockOf? table (prune u) = blockOf? table u := by
            intro u hu
            refine ih u ?_
            rw [blockChildren, if_neg hquote, if_pos hlist]
            exact List.mem_flatMap.mpr ⟨i, List.mem_filter.mpr ⟨hi, hitem⟩, hu⟩
          rw [children_pruneItem hitem, filterMap_pruneBlocks hbelow]
        · rfl
      obtain ⟨hordered, hlistAttrs⟩ := listAttrs_congr (t := prune t) (u := t) fun key => by
        rw [attr?, attr?, attrs?_prune]
      rw [blockOf?_list hlist, blockOf?_list (by simp [hlist]), children_prune, if_neg hquote,
        if_pos hlist, List.filterMap_map, hordered, hlistAttrs, hitems]
    · rw [prune_eq_self hquote hlist]

theorem skippedOf_prune {t : Token} (h : t.unsupported = false) :
    skippedOf table (prune t) = [] := by
  rw [List.eq_nil_iff_forall_not_mem]
  intro name hname
  obtain ⟨s, hs, hun, -⟩ := (mem_skippedOf_iff _).mp hname
  obtain ⟨u, -, hsupported, rfl⟩ := (blockOf_prune_iff t h).mp hs
  rw [unsupported_prune, hsupported] at hun
  cases hun

theorem flatMap_skippedOf_pruneBlocks (ts : List Token) :
    (pruneBlocks ts).flatMap (skippedOf table) = [] := by
  rw [List.flatMap_eq_nil_iff, pruneBlocks_eq]
  intro s hs
  obtain ⟨u, hu, rfl⟩ := List.mem_map.mp hs
  exact skippedOf_prune (by simpa using (List.mem_filter.mp hu).2)

end Canonical

end AdfMarkdown.Token

namespace AdfMarkdown

open Token

/-- The names recorded for raw tokens are those of the unsupported ones that stand as blocks.
Pruning keeps all other blocks, and the document is then the same and nothing is recorded. -/
theorem ofTokens_unsupported_exact (table : LinkDestination.Table) (raw : List Token) :
    (∀ name, name ∈ (SkippedNames.ofTokens (canonicalList table raw)).names ↔
      ∃ t ∈ raw, ∃ s : Token, s.BlockOf t ∧ s.unsupported = true ∧ s.canonicalType = name) ∧
    (∀ s : Token, (∃ t ∈ pruneBlocks raw, s.BlockOf t) ↔
      ∃ t ∈ raw, ∃ u : Token, u.BlockOf t ∧ u.unsupported = false ∧ s = prune u) ∧
    Node.ofTokens (canonicalList table (pruneBlocks raw)) =
      Node.ofTokens (canonicalList table raw) ∧
    (SkippedNames.ofTokens (canonicalList table (pruneBlocks raw))).names = [] := by
  refine ⟨fun name => ?_, fun s => ?_, ?_, ?_⟩
  · rw [SkippedNames.ofTokens, SkippedNames.mem_ofList, skippedInBlocks_canonicalList,
      List.mem_flatMap]
    simp only [mem_skippedOf_iff]
  · exact exists_mem_pruneBlocks_iff fun t _ => blockOf_prune_iff t
  · rw [Node.ofTokens, Node.ofTokens, blocks_canonicalList, blocks_canonicalList,
      filterMap_pruneBlocks fun t _ => blockOf?_prune t]
  · rw [SkippedNames.ofTokens, skippedInBlocks_canonicalList, flatMap_skippedOf_pruneBlocks]
    rfl

end AdfMarkdown
