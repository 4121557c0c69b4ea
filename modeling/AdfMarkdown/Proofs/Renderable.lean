import AdfMarkdown.Proofs.JsonText
import AdfMarkdown.Proofs.Places

/-! # Documents made from tokens render without a warning

Rendering fails only where a level or a first number is no integer or an item number is too long.
Reading a written node back settles all of this but the length of the numbers, and for a document
made from tokens that hangs only on where the list tokens start and how many children they have.
-/

namespace AdfMarkdown

def numbered (first : Nat) (items : List String) : List String :=
  (items.zipIdx first).map fun (item, n) => toString n ++ ". " ++ item

theorem le_pow_of_le {n : Nat} (h : 10 ≤ n) : 10000000000 ≤ Nat.pow 10 n :=
  Nat.pow_le_pow_right (n := 10) (by decide) h

theorem le_pow_maxDigits : 10000000000 ≤ Nat.pow 10 Json.maxDigits := le_pow_of_le (by decide)

theorem itemNumber_eq_ok_iff {n : Int} {s : String} :
    itemNumber n = .ok s ↔ n.natAbs < Nat.pow 10 Json.maxDigits ∧ s = toString n := by
  rw [itemNumber]
  split
  · next h => rw [Except.ok.injEq, and_iff_right h, eq_comm]
  · next h => exact iff_of_false nofun fun hshort => h hshort.1

theorem numberItems_eq_ok {first : Nat} {items : List String}
    (h : first + items.length ≤ Nat.pow 10 Json.maxDigits) :
    numberItems first items = .ok (numbered first items) := by
  induction items generalizing first with
  | nil => rfl
  | cons item rest ih =>
    rw [List.length_cons] at h
    have hnumber : itemNumber first = .ok (toString first) :=
      itemNumber_eq_ok_iff.mpr ⟨by omega, rfl⟩
    have hrest : numberItems ↑(first + 1) rest = .ok (numbered (first + 1) rest) := ih (by omega)
    rw [numberItems, hnumber, ← Int.natCast_succ, hrest]
    rfl

theorem numberItems_eq_ok_iff {items : List String} : ∀ {first : Int} {lines : List String},
    numberItems first items = .ok lines ↔
      (∀ i < items.length, (first + i).natAbs < Nat.pow 10 Json.maxDigits) ∧
        lines = items.mapIdx fun i item => toString (first + i) ++ ". " ++ item := by
  induction items with
  | nil =>
    intro first lines
    simp [numberItems, eq_comm]
  | cons item rest ih =>
    intro first lines
    have hzero : first + ((0 : Nat) : Int) = first := by omega
    have hnext (i : Nat) : first + ((i + 1 : Nat) : Int) = first + 1 + i := by omega
    constructor
    · intro h
      obtain ⟨number, hnumber, h⟩ := exists_of_bind_eq_ok h
      obtain ⟨more, hmore, h⟩ := exists_of_bind_eq_ok h
      obtain rfl := Except.ok.inj h
      obtain ⟨hfirst, rfl⟩ := itemNumber_eq_ok_iff.mp hnumber
      obtain ⟨hrest, rfl⟩ := ih.mp hmore
      refine ⟨fun i hi => ?_, ?_⟩
      · cases i with
        | zero => rwa [hzero]
        | succ i => exact hnext i ▸ hrest i (by simpa using hi)
      · simp only [List.mapIdx_cons, hzero, hnext]
    · rintro ⟨h, rfl⟩
      have hnumber : itemNumber first = .ok (toString first) :=
        itemNumber_eq_ok_iff.mpr ⟨hzero ▸ h 0 (by simp), rfl⟩
      have hrest := ih.mpr ⟨fun i hi => hnext i ▸ h (i + 1) (by simpa using hi), rfl⟩
      simp only [List.mapIdx_cons, hzero, hnext]
      rw [numberItems, hnumber, hrest]
      rfl

namespace Node

theorem renderBlocks_eq_ok_iff {xs : List Node} : ∀ {parts : List String},
    renderBlocks xs = .ok parts ↔ List.Forall₂ (fun x s => renderBlock x = .ok s) xs parts := by
  induction xs with
  | nil =>
    intro parts
    simp [renderBlocks, eq_comm]
  | cons x xs ih =>
    intro parts
    rw [renderBlocks]
    constructor
    · intro h
      obtain ⟨s, hs, h⟩ := exists_of_bind_eq_ok h
      obtain ⟨rest, hrest, h⟩ := exists_of_bind_eq_ok h
      obtain rfl := Except.ok.inj h
      exact .cons hs (ih.mp hrest)
    · rintro (_ | ⟨hs, hrest⟩)
      rw [hs, ih.mpr hrest]
      rfl

theorem renderBlocks_map_eq_ok {α : Type} {f : α → Node} {g : α → String} {as : List α}
    (h : ∀ a ∈ as, renderBlock (f a) = .ok (g a)) :
    renderBlocks (as.map f) = .ok (as.map g) := by
  rw [renderBlocks_eq_ok_iff, List.forall₂_map_left_iff, List.forall₂_map_right_iff]
  exact List.forall₂_same.mpr h

theorem renderItems_eq (xs : List Node) : renderItems xs = renderBlocks (xs.filter isItem) := by
  induction xs with
  | nil => simp [renderItems, renderBlocks]
  | cons x xs ih => by_cases h : x.isItem = true <;> simp [renderItems, renderBlocks, h, ih]

theorem exists_renderBlocks {xs : List Node} (h : ∀ x ∈ xs, ∃ s, renderBlock x = .ok s) :
    ∃ parts, renderBlocks xs = .ok parts ∧ parts.length = xs.length := by
  choose! g hg using h
  refine ⟨xs.map g, ?_, List.length_map g⟩
  simpa using renderBlocks_map_eq_ok (f := id) hg

theorem renderBlock_orderedList {content : List Node} {attrs : Fields} {first : Int}
    {items lines : List String} (hitems : renderItems content = .ok items)
    (hfirst : orderOf attrs = .ok first) (hlines : numberItems first items = .ok lines)
    (text : Option String) (marks : List Mark) :
    renderBlock (known .orderedList content attrs text marks) = .ok (Text.join "\n" lines) := by
  rw [renderBlock, hitems, hfirst]
  exact congrArg (· >>= fun lines => pure (Text.join "\n" lines)) hlines

def Renderable : Node → Prop
  | known .heading _ attrs _ _ => ∃ level, levelOf attrs = .ok level
  | known .orderedList content attrs _ _ =>
    ∃ first : Nat, orderOf attrs = .ok first ∧ first + content.length ≤ Nat.pow 10 Json.maxDigits
  | _ => True

/-- The level of a heading and the numbers of the items of a list are ones that rendering takes. -/
def Renders : Node → Prop
  | known .heading _ attrs _ _ => ∃ level, levelOf attrs = .ok level
  | known .orderedList content attrs _ _ =>
    ∃ first, orderOf attrs = .ok first ∧ ∀ i < (content.filter isItem).length,
      (first + i).natAbs < Nat.pow 10 Json.maxDigits
  | _ => True

theorem reaches_list_of_isItem {x y : Node} (hitem : x.isItem = true)
    (h : x.Reaches .block .block y) : y = x ∨ x.Reaches .list .block y := by
  obtain ⟨content, attrs, text, marks, rfl⟩ := exists_of_isItem hitem
  rcases Place.reaches_iff.mp h with ⟨-, rfl⟩ | ⟨q, hq, z, hz, h⟩
  · exact .inl rfl
  · exact .inr (.child hq hz h)

theorem Renders.of_isItem {x : Node} (hitem : x.isItem = true) : Renders x := by
  obtain ⟨content, attrs, text, marks, rfl⟩ := exists_of_isItem hitem
  trivial

/-- Only the blocks that rendering comes to can keep it from giving a text. -/
theorem exists_renderBlock_of_reaches (x : Node) :
    (∀ y, x.Reaches .block .block y → Renders y) → ∃ s, renderBlock x = .ok s := by
  induction x using Node.induct with
  | step x ih =>
    intro h
    cases x with
    | foreign name => exact ⟨_, rfl⟩
    | known kind content attrs text marks =>
      have hself := h _ (.self .block _)
      have hblocks (hopens : Place.opens? .block (some kind) = some .block) :
          ∃ parts, renderBlocks content = .ok parts ∧ parts.length = content.length :=
        exists_renderBlocks fun y hy => ih y hy fun z hz => h z (.child hopens hy hz)
      have hitems (hopens : Place.opens? .block (some kind) = some .list) :
          ∃ items, renderItems content = .ok items ∧
            items.length = (content.filter isItem).length := by
        rw [renderItems_eq]
        refine exists_renderBlocks fun y hy => ?_
        rw [List.mem_filter] at hy
        refine ih y hy.1 fun z hz => ?_
        rcases reaches_list_of_isItem hy.2 hz with rfl | hz
        · exact .of_isItem hy.2
        · exact h z (.child hopens hy.1 hz)
      cases kind with
      | paragraph | codeBlock | hardBreak | doc | text => exact ⟨_, rfl⟩
      | heading =>
        obtain ⟨level, hlevel⟩ := hself
        exact ⟨_, by rw [renderBlock, hlevel]; rfl⟩
      | bulletList =>
        obtain ⟨items, hitems, -⟩ := hitems rfl
        exact ⟨_, by rw [renderBlock, hitems]; rfl⟩
      | listItem | blockquote =>
        obtain ⟨parts, hparts, -⟩ := hblocks rfl
        exact ⟨_, by rw [renderBlock, hparts]; rfl⟩
      | orderedList =>
        obtain ⟨items, hitems, hlength⟩ := hitems rfl
        obtain ⟨first, horder, hfit⟩ := hself
        have hlines := numberItems_eq_ok_iff.mpr ⟨hlength ▸ hfit, rfl⟩
        exact ⟨_, renderBlock_orderedList hitems horder hlines text marks⟩

theorem Renderable.renders {x : Node} (h : Renderable x) : Renders x := by
  cases x with
  | foreign name => trivial
  | known kind content attrs text marks =>
    cases kind with
    | orderedList =>
      obtain ⟨first, horder, hfit⟩ := h
      refine ⟨first, horder, fun i hi => ?_⟩
      have hle : (content.filter isItem).length ≤ content.length := List.length_filter_le _ _
      omega
    | _ => exact h

theorem exists_renderBlock (x : Node) (h : x.Everywhere Renderable) :
    ∃ s, renderBlock x = .ok s :=
  exists_renderBlock_of_reaches x fun _ hy => (everywhere_of_reaches hy h).renders

section Reread

theorem exists_of_mem_content_reread {x y : Node} (h : y ∈ x.reread.content) :
    ∃ z ∈ x.content, y = z.reread := by
  cases x with
  | foreign name =>
    rw [reread, ofFields, assemble] at h
    split at h <;> simp [content, run, hardBreak, branch, contentOfFields] at h
  | known kind content attrs text marks =>
    have hmap : y ∈ rereadAll content := by
      cases kind with
      | text | hardBreak => cases h
      | _ => exact h
    rw [rereadAll_eq_map, List.mem_map] at hmap
    obtain ⟨z, hz, rfl⟩ := hmap
    exact ⟨z, hz, rfl⟩

theorem everywhere_reread {P : Node → Prop} (x : Node) :
    (x.Everywhere fun z => P z.reread) → x.reread.Everywhere P := by
  induction x using Node.induct with
  | step x ih =>
    intro h
    obtain ⟨hself, hbelow⟩ := everywhere_iff.mp h
    refine everywhere_iff.mpr ⟨hself, fun y hy => ?_⟩
    obtain ⟨z, hz, rfl⟩ := exists_of_mem_content_reread hy
    exact ih z hz (hbelow z hz)

/-- Reading back brings a level into its range, so only the numbers of a list are left. -/
theorem renderable_reread {kind : NodeKind} (h : kind ≠ .orderedList) (content : List Node)
    (attrs : Fields) (text : Option String) (marks : List Mark) :
    Renderable (known kind content attrs text marks).reread := by
  cases kind with
  | heading => exact ⟨_, rfl⟩
  | orderedList => exact absurd rfl h
  | _ => trivial

theorem InlinePiece.renderable_reread {x : Node} (hx : InlinePiece x) :
    Renderable x.reread := by
  rcases hx with rfl | ⟨s, marks, rfl, -, -⟩ <;> trivial

end Reread

end Node

open Node

namespace Token

/-- A list token starts at one or at a number of at most nine digits. -/
def StartsShort (t : Token) : Prop :=
  t.name = "list" → ∀ v, t.attr? "start" = some v → ∃ n : Nat, n < 1000000000 ∧ v = .int n

/-- After such a start the children of a list token have numbers of few enough digits. -/
def CountsShort (t : Token) : Prop :=
  t.name = "list" → 1000000000 + t.children.length ≤ Nat.pow 10 Json.maxDigits

theorem length_items_le (ts : List Token) : (items ts).length ≤ ts.length := by
  rw [items_eq_map, List.length_map]
  exact List.length_filter_le _ _

theorem renderable_reread_list {t : Token} (hname : t.name = "list") (hstart : t.StartsShort)
    (hcount : t.CountsShort) : Renderable t.list.reread := by
  cases hord : t.ordered with
  | false =>
    rw [list, hord]
    exact renderable_reread (by decide) _ _ _ _
  | true =>
    have hlength : (rereadAll (items t.children)).length ≤ t.children.length := by
      rw [rereadAll_eq_map, List.length_map]
      exact length_items_le _
    obtain ⟨n, hn, hv⟩ : ∃ n : Nat, n < 1000000000 ∧ (t.attr? "start").getD (.int 1) = .int n :=
      attr?_getD ⟨1, by decide, rfl⟩ (hstart hname)
    have horder : orderOf (attributesFor .orderedList (.object t.listAttrs)) = .ok (n : Int) := by
      rw [listAttrs_eq hord hv]
      by_cases h : n = 1
      · subst h; rfl
      · rw [if_neg h]; rfl
    have hcount := hcount hname
    rw [list, hord, if_pos rfl, Node.branch, reread_branch (by decide) (by decide)]
    exact ⟨n, horder, by omega⟩

theorem handsOn_renderable :
    HandsOn (fun t => t.StartsShort ∧ t.CountsShort) fun x => Renderable x.reread where
  text t kind attrs _ htext _ := by
    have hpieces := inlinePiece_of_mem_inlineContent t.children
    refine everywhere_of_inlinePieces hpieces ?_ fun x hx => (hpieces x hx).renderable_reread
    rcases htext with ⟨-, rfl, -⟩ | ⟨-, rfl, -⟩ <;> exact renderable_reread (by decide) _ _ _ _
  code t _ _ :=
    everywhere_of_inlinePieces (fun _ => inlinePiece_of_mem_codeBlock)
      (renderable_reread (by decide) _ _ _ _)
      fun _ hx => (inlinePiece_of_mem_codeBlock hx).renderable_reread
  list t h hname := renderable_reread_list hname h.1 h.2
  quotation t _ := renderable_reread (by decide) _ _ _ _
  item t _ := renderable_reread (by decide) _ _ _ _

theorem startsShort_canonical {table : LinkDestination.Table} {t c : Token}
    (h : t.StartsShort ∧ t.CountsShort) (hc : canonical? table t = some c) :
    c.StartsShort ∧ c.CountsShort := by
  constructor
  · intro hname v hv
    obtain ⟨hn, hattr, -⟩ := canonical?_list hc hname
    exact h.1 hn v (hattr _ ▸ hv)
  · intro hname
    obtain ⟨hn, -, hlength⟩ := canonical?_list hc hname
    exact (Nat.add_le_add_left hlength _).trans (h.2 hn)

theorem exists_renderBlocks_canonicalList (table : LinkDestination.Table) {raw : List Token}
    (h : ∀ t ∈ raw, t.Everywhere fun t => t.StartsShort ∧ t.CountsShort) :
    ∃ parts, renderBlocks (rereadAll (blocks (canonicalList table raw))) = .ok parts := by
  have hcanonical : ∀ c ∈ canonicalList table raw,
      c.Everywhere fun c => c.StartsShort ∧ c.CountsShort :=
    forall_mem_canonicalList (fun t c ht hc => startsShort_canonical ht hc) h
  have hdoc := handsOn_renderable.everywhere_ofTokens hcanonical
    (renderable_reread (by decide) _ _ _ _)
  obtain ⟨parts, hparts, -⟩ := exists_renderBlocks fun x hx =>
    exists_renderBlock x ((Node.everywhere_iff.mp (everywhere_reread _ hdoc)).2 x hx)
  exact ⟨parts, hparts⟩

end Token

/-- The document of tokens, made canonical and written, renders without a warning. Only a list of
more children than there are numbers of few enough digits could keep it from rendering. -/
theorem ofTokens_canonicalList_renders (markdown : String) (raw : List Token)
    (hstart : ∀ t ∈ raw, t.Everywhere Token.StartsShort) :
    let table := LinkDestination.table markdown
    let rendering := Rendering.ofJson (Node.ofTokens (Token.canonicalList table raw)).toJson
    (∃ s, rendering = .ok ⟨s, []⟩) ∨
      (∃ e, rendering = .error e) ∧ ∃ t ∈ raw, ∃ u : Token, u.Within t ∧ ¬ u.CountsShort := by
  intro table rendering
  have hrendering : rendering = _ := Rendering.ofJson_ofTokens (Token.canonicalList table raw)
  by_cases hcount : ∀ t ∈ raw, t.Everywhere Token.CountsShort
  · left
    obtain ⟨parts, hparts⟩ := Token.exists_renderBlocks_canonicalList table
      fun t ht u hu => ⟨hstart t ht u hu, hcount t ht u hu⟩
    rw [hrendering, hparts]
    exact ⟨_, rfl⟩
  · -- Nothing is skipped here either: it can only fail, and a list is too long for its numbers.
    have hlong : ∃ t ∈ raw, ∃ u : Token, u.Within t ∧ ¬ u.CountsShort := by
      simpa [Token.Everywhere] using hcount
    rw [hrendering]
    cases Node.renderBlocks (Node.rereadAll (Token.blocks (Token.canonicalList table raw))) with
    | ok parts => exact .inl ⟨_, rfl⟩
    | error e => exact .inr ⟨⟨e, rfl⟩, hlong⟩

/-- A list from the greatest start, with unsupported blocks around it and within it. -/
theorem ofTokens_canonicalList_renders_nested :
    let raw : List Token :=
      [.bare "thematic_break",
        .branchWith "list" [("ordered", .bool true), ("start", .int 999999999)]
          [.branch "list_item"
            [.branch "block_text" [.branchWith "image" [("url", .text "u")] [.leaf "text" "a"]],
              .branch "block_quote"
                [.leaf "block_html" "<hr>", .bare "blank_line",
                  .branch "table" [.branch "table_head" []],
                  .branchWith "list" [("ordered", .bool false)] [.branch "list_item" []]]]]]
    (∀ t ∈ raw, t.Everywhere Token.StartsShort) ∧
      ∃ s, Rendering.ofJson
        (Node.ofTokens (Token.canonicalList (LinkDestination.table "[a]: /b\n") raw)).toJson =
          .ok ⟨s, []⟩ := by
  intro raw
  have hnumber : ∃ n : Nat, n < 1000000000 ∧ Json.int 999999999 = .int n :=
    ⟨999999999, by decide, rfl⟩
  have hstart : ∀ t ∈ raw, t.Everywhere Token.StartsShort := by
    simpa [raw, Token.bare, Token.branch, Token.branchWith, Token.leaf, Token.everywhere_mk,
      Token.StartsShort, Token.name, Token.attr?, Token.attrs?, Fields.get?] using hnumber
  have hpow := le_pow_maxDigits
  have hfew : 1000000000 + 1 ≤ Nat.pow 10 Json.maxDigits := by omega
  have hcount : ∀ t ∈ raw, t.Everywhere Token.CountsShort := by
    simpa [raw, Token.bare, Token.branch, Token.branchWith, Token.leaf, Token.everywhere_mk,
      Token.CountsShort, Token.name, Token.children, Token.children?] using hfew
  refine ⟨hstart, (ofTokens_canonicalList_renders _ raw hstart).resolve_right ?_⟩
  rintro ⟨-, t, ht, u, hu, hlong⟩
  exact hlong (hcount t ht u hu)

end AdfMarkdown
