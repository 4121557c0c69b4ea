import AdfMarkdown.Proofs.Rereading
import AdfMarkdown.Proofs.Schema

/-! # Nothing is skipped in documents made from tokens

Rendering skips a node for its kind in its position. Reading a written node back changes neither
its kind nor those of its children, so the same nodes are skipped before and after; and the schema
of documents made from tokens allows a kind only where rendering takes it.
-/

namespace AdfMarkdown

namespace Node

theorem skippedInBlocks_eq_flatMap (xs : List Node) :
    skippedInBlocks xs = xs.flatMap skippedInBlock := by
  induction xs with
  | nil => simp [skippedInBlocks]
  | cons x xs ih => simp [skippedInBlocks, ih]

theorem exists_of_isItem {x : Node} (h : x.isItem = true) :
    ∃ content attrs text marks, x = known .listItem content attrs text marks := by
  cases x with
  | foreign name => cases h
  | known kind content attrs text marks =>
    cases kind with
    | listItem => exact ⟨content, attrs, text, marks, rfl⟩
    | _ => cases h

def skippedInItem (x : Node) : List String := if x.isItem then skippedInBlock x else [x.typeName]

theorem skippedInItems_eq_flatMap (xs : List Node) :
    skippedInItems xs = xs.flatMap skippedInItem := by
  induction xs with
  | nil => simp [skippedInItems]
  | cons x xs ih =>
    cases x with
    | foreign name => simp [skippedInItems, ih, skippedInItem, isItem]
    | known kind content attrs text marks =>
      cases kind <;> simp [skippedInItems, ih, skippedInItem, isItem, skippedInBlock]

section Reread

/-- The node is not of a kind that only its name would make it. -/
def Genuine (x : Node) : Prop := ∀ name, x = foreign name → NodeKind.ofName? name = none

theorem reread_foreign {name : String} (h : Genuine (foreign name)) :
    (foreign name).reread = foreign name := by
  simp [reread, ofFields, assemble, Fields.get?, Json.text?, h name rfl]

theorem reread_kind {x : Node} (h : Genuine x) :
    x.reread.typeName = x.typeName ∧ x.reread.isItem = x.isItem ∧
      x.reread.inlineSkipped? = x.inlineSkipped? := by
  cases x with
  | foreign name => rw [reread_foreign h]; exact ⟨rfl, rfl, rfl⟩
  | known kind content attrs text marks => cases kind <;> exact ⟨rfl, rfl, rfl⟩

theorem skippedInline_reread {xs : List Node} (h : ∀ x ∈ xs, Genuine x) :
    skippedInline (rereadAll xs) = skippedInline xs := by
  rw [rereadAll_eq_map, skippedInline, skippedInline, List.filterMap_map]
  exact List.filterMap_congr fun x hx => (reread_kind (h x hx)).2.2

theorem skippedInBlock_reread (x : Node) : x.Everywhere Genuine →
    skippedInBlock x.reread = skippedInBlock x := by
  induction x using Node.induct with
  | step x ih =>
    intro h
    obtain ⟨hself, hbelow⟩ := everywhere_iff.mp h
    cases x with
    | foreign name => rw [reread_foreign hself]
    | known kind content attrs text marks =>
      have hgen : ∀ y ∈ content, Genuine y := fun y hy => hbelow y hy y (.self y)
      have hinline := skippedInline_reread hgen
      have hblocks : skippedInBlocks (rereadAll content) = skippedInBlocks content := by
        rw [rereadAll_eq_map, skippedInBlocks_eq_flatMap, skippedInBlocks_eq_flatMap,
          List.flatMap_map]
        exact List.flatMap_congr fun y hy => ih y hy (hbelow y hy)
      have hitems : skippedInItems (rereadAll content) = skippedInItems content := by
        rw [rereadAll_eq_map, skippedInItems_eq_flatMap, skippedInItems_eq_flatMap,
          List.flatMap_map]
        refine List.flatMap_congr fun y hy => ?_
        obtain ⟨hname, hitem, -⟩ := reread_kind (hgen y hy)
        rw [skippedInItem, skippedInItem, hname, hitem, ih y hy (hbelow y hy)]
      cases kind <;> simp [reread, branch, run, hardBreak, skippedInBlock, hinline, hblocks, hitems]

end Reread

theorem inlineSkipped?_of_ofKind {x : Node} (h : x.OfKind inlineKinds) :
    x.inlineSkipped? = none := by
  cases x with
  | foreign name => cases h
  | known kind content attrs text marks =>
    rcases List.mem_pair.mp h with rfl | rfl <;> rfl

theorem isItem_of_ofKind {x : Node} (h : x.OfKind [.listItem]) : x.isItem = true := by
  cases x with
  | foreign name => cases h
  | known kind content attrs text marks =>
    obtain rfl := List.mem_singleton.mp h
    rfl

def renderedKinds : List NodeKind := .listItem :: blockKinds

theorem OfKind.mono {kinds kinds' : List NodeKind} (hsub : ∀ k ∈ kinds, k ∈ kinds') {x : Node}
    (h : x.OfKind kinds) : x.OfKind kinds' := by
  cases x with
  | foreign name => cases h
  | known kind content attrs text marks => exact hsub kind h

/-- A canonical block or item has a kind in each position that rendering takes there. -/
theorem skippedInBlock_of_canonical {language : Json → Prop} (x : Node) :
    x.Everywhere (Canonical language) → x.OfKind renderedKinds → skippedInBlock x = [] := by
  induction x using Node.induct with
  | step x ih =>
    intro h hkind
    obtain ⟨hself, hbelow⟩ := everywhere_iff.mp h
    cases x with
    | foreign name => cases hself
    | known kind content attrs text marks =>
      obtain ⟨hold, -⟩ := hself
      have hinline (hk : ∀ y ∈ content, y.OfKind inlineKinds) : skippedInline content = [] :=
        List.filterMap_eq_nil_iff.mpr fun y hy => inlineSkipped?_of_ofKind (hk y hy)
      have hblocks (hk : ∀ y ∈ content, y.OfKind blockKinds) : skippedInBlocks content = [] := by
        rw [skippedInBlocks_eq_flatMap, List.flatMap_eq_nil_iff]
        intro y hy
        exact ih y hy (hbelow y hy) ((hk y hy).mono fun k hk => List.mem_cons_of_mem _ hk)
      have hitems (hk : ∀ y ∈ content, y.OfKind [.listItem]) : skippedInItems content = [] := by
        rw [skippedInItems_eq_flatMap, List.flatMap_eq_nil_iff]
        intro y hy
        rw [skippedInItem, if_pos (isItem_of_ofKind (hk y hy))]
        exact ih y hy (hbelow y hy) ((hk y hy).mono (by decide))
      cases kind with
      | paragraph | heading => exact hinline hold.2
      | codeBlock | hardBreak => rfl
      | bulletList | orderedList => exact hitems hold
      | listItem | blockquote => exact hblocks hold
      | doc | text => simp [OfKind, renderedKinds, blockKinds] at hkind

theorem Canonical.genuine {language : Json → Prop} {x : Node} (h : Canonical language x) :
    Genuine x := by
  rintro name rfl
  cases h

theorem skippedInBlocks_reread_blocks (tokens : List Token) :
    skippedInBlocks (rereadAll (Token.blocks tokens)) = [] := by
  have hdoc : (ofTokens tokens).Everywhere (Canonical fun _ => True) :=
    Token.everywhere_canonical_ofTokens fun _ _ _ _ _ _ _ _ => trivial
  rw [rereadAll_eq_map, skippedInBlocks_eq_flatMap, List.flatMap_map, List.flatMap_eq_nil_iff]
  intro x hx
  have hcanonical := (everywhere_iff.mp hdoc).2 x hx
  have hgenuine : x.Everywhere Genuine := fun y hy => (hcanonical y hy).genuine
  have hkind := (Token.forall_mem_blocks_ofKind tokens x hx).mono
    fun k hk => List.mem_cons_of_mem .listItem hk
  rw [skippedInBlock_reread x hgenuine]
  exact skippedInBlock_of_canonical x hcanonical hkind

end Node

theorem Rendering.ofBlocks_of_skippedInBlocks {xs : List Node}
    (h : Node.skippedInBlocks xs = []) :
    Rendering.ofBlocks xs =
      (fun parts => ⟨Text.joinNonempty "\n\n" parts, []⟩) <$> Node.renderBlocks xs := by
  rw [Rendering.ofBlocks, h]
  cases Node.renderBlocks xs <;> rfl

/-- Rendering a document made from tokens gives no warning, if it gives anything. -/
theorem Rendering.ofJson_ofTokens (tokens : List Token) :
    Rendering.ofJson (Node.ofTokens tokens).toJson =
      (fun parts => ⟨Text.joinNonempty "\n\n" parts, []⟩) <$>
        Node.renderBlocks (Node.rereadAll (Token.blocks tokens)) := by
  rw [Node.ofTokens, Node.branch, Rendering.ofJson_toJson (by decide) (by decide)]
  exact Rendering.ofBlocks_of_skippedInBlocks (Node.skippedInBlocks_reread_blocks tokens)

end AdfMarkdown
