import AdfMarkdown.Proofs.Tree
import AdfMarkdown.Token.Document

/-! # What a token gives

The equations of the inline and the block builder over the parts of a token: what its type name
asks for, and how its children go into it. A block token that gives a node gives one of four.
A property that each token hands on to the nodes it gives holds everywhere in the document.
-/

namespace AdfMarkdown.Token

def ownMarks (t : Token) : List Mark :=
  if t.name = "emphasis" then [.em]
  else if t.name = "strong" then [.strong]
  else if t.name = "link" then [.link t.url]
  else []

theorem inlineNodesOf_eq_flatMap (marks : List Mark) (ts : List Token) :
    inlineNodesOf marks ts = ts.flatMap (inlineNodes marks) := by
  induction ts with
  | nil => simp [inlineNodesOf]
  | cons t ts ih => simp [inlineNodesOf, ih]

theorem childNodes_eq (marks : List Mark) (children : Option (List Token)) :
    childNodes marks children = inlineNodesOf marks (children.getD []) := by
  cases children with
  | none => simp [childNodes, inlineNodesOf]
  | some ts => simp [childNodes]

theorem inlineNodes_eq (marks : List Mark) (t : Token) :
    inlineNodes marks t =
      if t.name = "text" then if t.raw = "" then [] else [.run t.raw marks]
      else if t.name = "codespan" then if t.raw = "" then [] else [.run t.raw (marks ++ [.code])]
      else if t.name = "softbreak" then [.run "\n" marks]
      else if t.name = "linebreak" then [.hardBreak]
      else inlineNodesOf (marks ++ t.ownMarks) t.children := by
  obtain ⟨name, raw, style, attrs, children⟩ := t
  unfold inlineNodes
  split
  · rfl
  · rfl
  all_goals simp_all [Token.name, ownMarks, Token.children, children?, childNodes_eq, url, attr?,
    attrs?]

theorem mem_ownMarks_cases {t : Token} {m : Mark} (hm : m ∈ t.ownMarks) :
    m = .em ∨ m = .strong ∨ (t.name = "link" ∧ m = .link t.url) := by
  unfold ownMarks at hm
  split at hm
  · exact .inl (List.mem_singleton.mp hm)
  split at hm
  · exact .inr (.inl (List.mem_singleton.mp hm))
  split at hm
  · next hname => exact .inr (.inr ⟨hname, List.mem_singleton.mp hm⟩)
  · cases hm

/-- A node of an inline token is a run with the marks around it, or with a code mark after them, a
hard break, or a node of a child under the marks of the token too. -/
theorem mem_inlineNodes_cases {marks : List Mark} {t : Token} {x : Node}
    (hx : x ∈ inlineNodes marks t) :
    (∃ s, s ≠ "" ∧ (x = .run s marks ∨ x = .run s (marks ++ [.code]))) ∨ x = .hardBreak ∨
      ∃ u ∈ t.children, x ∈ inlineNodes (marks ++ t.ownMarks) u := by
  rw [inlineNodes_eq] at hx
  split at hx
  · split at hx
    · cases hx
    · next hraw => exact .inl ⟨t.raw, hraw, .inl (List.mem_singleton.mp hx)⟩
  split at hx
  · split at hx
    · cases hx
    · next hraw => exact .inl ⟨t.raw, hraw, .inr (List.mem_singleton.mp hx)⟩
  split at hx
  · exact .inl ⟨"\n", by decide, .inl (List.mem_singleton.mp hx)⟩
  split at hx
  · exact .inr (.inl (List.mem_singleton.mp hx))
  · rw [inlineNodesOf_eq_flatMap, List.mem_flatMap] at hx
    exact .inr (.inr hx)

theorem blocks_eq_filterMap (ts : List Token) : blocks ts = ts.filterMap block? := by
  induction ts with
  | nil => simp [blocks]
  | cons t ts ih => cases h : block? t <;> simp [blocks, h, ih]

theorem childBlocks_eq (children : Option (List Token)) :
    childBlocks children = blocks (children.getD []) := by
  cases children with
  | none => simp [childBlocks, blocks]
  | some ts => simp [childBlocks]

def item (t : Token) : Node := .branch .listItem (blocks t.children) []

theorem items_eq_map (ts : List Token) :
    items ts = (ts.filter (·.name = "list_item")).map item := by
  induction ts with
  | nil => simp [items]
  | cons t ts ih =>
    obtain ⟨name, raw, style, attrs, children⟩ := t
    by_cases h : name = "list_item" <;>
      simp [items, ih, h, Token.name, item, Token.children, children?, childBlocks_eq]

theorem childItems_eq (children : Option (List Token)) :
    childItems children = items (children.getD []) := by
  cases children with
  | none => simp [childItems, items]
  | some ts => simp [childItems]

def list (t : Token) : Node :=
  .branch (if t.ordered then .orderedList else .bulletList) (items t.children) t.listAttrs

def quotation (t : Token) : Node := .branch .blockquote (blocks t.children) []

theorem block?_eq (t : Token) :
    block? t =
      if t.name = "paragraph" then textBlock? .paragraph [] t
      else if t.name = "heading" then textBlock? .heading t.headingAttrs t
      else if t.name = "block_code" then some t.codeBlock
      else if t.name = "list" then some t.list
      else if t.name = "block_quote" then some t.quotation
      else none := by
  obtain ⟨name, raw, style, attrs, children⟩ := t
  unfold block?
  split <;> simp_all [Token.name, list, quotation, Token.children, children?, childBlocks_eq,
    childItems_eq]

theorem textBlock?_eq_some_iff {kind : NodeKind} {attrs : Fields} {t : Token} {x : Node} :
    textBlock? kind attrs t = some x ↔
      inlineContent t.children ≠ [] ∧ x = .branch kind (inlineContent t.children) attrs := by
  simp only [textBlock?, List.isEmpty_iff]
  by_cases h : inlineContent t.children = []
  · simp [h]
  · simp [h, eq_comm (a := x)]

theorem attr?_getD {p : Json → Prop} {t : Token} {key : String} {d : Json} (hd : p d)
    (h : ∀ v, t.attr? key = some v → p v) : p ((t.attr? key).getD d) := by
  cases hv : t.attr? key with
  | none => exact hd
  | some v => exact h v hv

theorem listAttrs_eq {t : Token} (hord : t.ordered = true) {n : Nat}
    (hn : (t.attr? "start").getD (.int 1) = .int n) :
    t.listAttrs = if n = 1 then [] else [("order", .int n)] := by
  have hsame : (Json.int n).same (.int 1) = ((n : Int) == 1) := by
    simp [Json.same, Json.sameNumber, Json.asNumber]
  have hone : ((n : Int) == 1) = decide (n = 1) := by
    rw [Bool.eq_iff_iff, beq_iff_eq, decide_eq_true_iff]
    omega
  rw [listAttrs, hord, hn, hsame, hone]
  by_cases h : n = 1 <;> simp [h]

/-- The token is a paragraph, and the kind and attributes are a paragraph's, or the same for a
heading. -/
def Textual (t : Token) (kind : NodeKind) (attrs : Fields) : Prop :=
  t.name = "paragraph" ∧ kind = .paragraph ∧ attrs = [] ∨
    t.name = "heading" ∧ kind = .heading ∧ attrs = t.headingAttrs

theorem block?_cases {t : Token} {x : Node} (h : block? t = some x) :
    (∃ kind attrs, t.Textual kind attrs ∧ inlineContent t.children ≠ [] ∧
      x = .branch kind (inlineContent t.children) attrs) ∨
    (t.name = "block_code" ∧ x = t.codeBlock) ∨
    (t.name = "list" ∧ x = t.list) ∨
    (t.name = "block_quote" ∧ x = t.quotation) := by
  rw [block?_eq] at h
  split at h
  · next hn =>
    obtain ⟨hne, rfl⟩ := textBlock?_eq_some_iff.mp h
    exact .inl ⟨_, _, .inl ⟨hn, rfl, rfl⟩, hne, rfl⟩
  split at h
  · next hn =>
    obtain ⟨hne, rfl⟩ := textBlock?_eq_some_iff.mp h
    exact .inl ⟨_, _, .inr ⟨hn, rfl, rfl⟩, hne, rfl⟩
  split at h
  · next hn => exact .inr (.inl ⟨hn, (Option.some.inj h).symm⟩)
  split at h
  · next hn => exact .inr (.inr (.inl ⟨hn, (Option.some.inj h).symm⟩))
  split at h
  · next hn => exact .inr (.inr (.inr ⟨hn, (Option.some.inj h).symm⟩))
  · cases h

theorem exists_of_mem_blocks {ts : List Token} {x : Node} (h : x ∈ blocks ts) :
    ∃ t ∈ ts, block? t = some x := by
  rwa [blocks_eq_filterMap, List.mem_filterMap] at h

theorem exists_of_mem_items {ts : List Token} {x : Node} (h : x ∈ items ts) :
    ∃ t ∈ ts, t.name = "list_item" ∧ x = item t := by
  rw [items_eq_map, List.mem_map] at h
  obtain ⟨t, ht, rfl⟩ := h
  simp only [List.mem_filter, decide_eq_true_eq] at ht
  exact ⟨t, ht.1, ht.2, rfl⟩

theorem skippedInBlock_eq (t : Token) :
    skippedInBlock t =
      if t.name ∈ ["paragraph", "heading", "block_code"] then []
      else if t.name = "list" then skippedInItems t.children
      else if t.name = "block_quote" then skippedInBlocks t.children
      else [t.skippedName] := by
  obtain ⟨name, raw, style, attrs, children⟩ := t
  have hitems : skippedInChildItems children = skippedInItems (children.getD []) := by
    cases children <;> simp [skippedInChildItems, skippedInItems]
  have hblocks : skippedInChildBlocks children = skippedInBlocks (children.getD []) := by
    cases children <;> simp [skippedInChildBlocks, skippedInBlocks]
  have hname : (mk name raw style attrs none).skippedName =
      (mk name raw style attrs children).skippedName := rfl
  unfold skippedInBlock
  split <;> simp_all [Token.name, Token.children, children?]

theorem skippedInItems_cons (t : Token) (ts : List Token) :
    skippedInItems (t :: ts) =
      (if t.name = "list_item" then skippedInBlocks t.children else []) ++ skippedInItems ts := by
  obtain ⟨name, raw, style, attrs, children⟩ := t
  have hblocks : skippedInChildBlocks children = skippedInBlocks (children.getD []) := by
    cases children <;> simp [skippedInChildBlocks, skippedInBlocks]
  rw [skippedInItems, hblocks]
  rfl

section Everywhere

variable {P : Node → Prop} {Q : Token → Prop}

/-- What a token with `Q` has to hand on to the nodes it gives for `P` to hold of them. The
blocks of text and code have no blocks below them and are settled as a whole. -/
structure HandsOn (Q : Token → Prop) (P : Node → Prop) : Prop where
  text : ∀ t kind attrs, Q t → t.Textual kind attrs → inlineContent t.children ≠ [] →
    (Node.branch kind (inlineContent t.children) attrs).Everywhere P
  code : ∀ t, Q t → t.name = "block_code" → t.codeBlock.Everywhere P
  list : ∀ t, Q t → t.name = "list" → P t.list
  quotation : ∀ t, Q t → P t.quotation
  item : ∀ t, Q t → P t.item

theorem HandsOn.everywhere (h : HandsOn Q P) (t : Token) : t.Everywhere Q →
    (∀ x, block? t = some x → x.Everywhere P) ∧ t.item.Everywhere P := by
  -- A child may stand as a block or as an item, so the induction proves both at once.
  induction t using Token.induct with
  | step t ih =>
    intro hQ
    obtain ⟨hself, hbelow⟩ := Token.everywhere_iff.mp hQ
    have hblocks : ∀ x ∈ blocks t.children, x.Everywhere P := by
      intro x hx
      obtain ⟨u, hu, hx⟩ := exists_of_mem_blocks hx
      exact (ih u hu (hbelow u hu)).1 x hx
    have hitems : ∀ x ∈ items t.children, x.Everywhere P := by
      intro x hx
      obtain ⟨u, hu, -, rfl⟩ := exists_of_mem_items hx
      exact (ih u hu (hbelow u hu)).2
    refine ⟨fun x hx => ?_, Node.everywhere_iff.mpr ⟨h.item t hself, hblocks⟩⟩
    rcases block?_cases hx with ⟨kind, attrs, htext, hne, rfl⟩ | ⟨hn, rfl⟩ | ⟨hn, rfl⟩ | ⟨-, rfl⟩
    · exact h.text t kind attrs hself htext hne
    · exact h.code t hself hn
    · exact Node.everywhere_iff.mpr ⟨h.list t hself hn, hitems⟩
    · exact Node.everywhere_iff.mpr ⟨h.quotation t hself, hblocks⟩

theorem HandsOn.everywhere_ofTokens (h : HandsOn Q P) {tokens : List Token}
    (hQ : ∀ t ∈ tokens, t.Everywhere Q) (hdoc : P (Node.ofTokens tokens)) :
    (Node.ofTokens tokens).Everywhere P := by
  refine Node.everywhere_iff.mpr ⟨hdoc, fun x hx => ?_⟩
  obtain ⟨t, ht, hx⟩ := exists_of_mem_blocks hx
  exact (h.everywhere t (hQ t ht)).1 x hx

end Everywhere

end AdfMarkdown.Token
