import AdfMarkdown.Proofs.Building
import AdfMarkdown.Proofs.Consolidation
import AdfMarkdown.Proofs.Normalising

/-! # The schema of documents made from tokens

Every node of a document made from tokens holds what its kind may hold, in the form with no
empty text and no two neighbouring runs with equal marks. The invariant of the inline builder is
that no enclosing mark is a code mark; consolidation comes last and settles the neighbours. For
canonical tokens the language of a code block is moreover a text that is not empty.
-/

namespace AdfMarkdown

namespace Node

def OfKind (kinds : List NodeKind) : Node → Prop
  | known kind .. => kind ∈ kinds
  | foreign _ => False

def blockKinds : List NodeKind :=
  [.paragraph, .heading, .codeBlock, .bulletList, .orderedList, .blockquote]

def inlineKinds : List NodeKind := [.text, .hardBreak]

/-- The content that a node of the kind may have. -/
def MayHold : NodeKind → List Node → Prop
  | .doc, xs | .blockquote, xs | .listItem, xs => ∀ x ∈ xs, x.OfKind blockKinds
  | .bulletList, xs | .orderedList, xs => ∀ x ∈ xs, x.OfKind [.listItem]
  | .paragraph, xs | .heading, xs => xs ≠ [] ∧ ∀ x ∈ xs, x.OfKind inlineKinds
  | .codeBlock, xs => xs = [] ∨ ∃ s, xs = [run s []]
  | .text, xs | .hardBreak, xs => xs = []

def MayHave (language : Json → Prop) : NodeKind → Fields → Prop
  | .heading, attrs => ∃ level, attrs = [("level", level)]
  | .codeBlock, attrs => attrs = [] ∨ ∃ v, language v ∧ attrs = [("language", v)]
  | .orderedList, attrs => attrs = [] ∨ ∃ v, v.same (.int 1) = false ∧ attrs = [("order", v)]
  | _, attrs => attrs = []

def CodeLast (marks : List Mark) : Prop := ∀ m ∈ marks.dropLast, m.kind ≠ .code

def MaySay : NodeKind → Option String → List Mark → Prop
  | .text, text, marks => (∃ s, text = some s ∧ s ≠ "") ∧ CodeLast marks
  | _, text, marks => text = none ∧ marks = []

/-- The node has what its kind may have, and no two neighbours below it could be one run. -/
def Canonical (language : Json → Prop) : Node → Prop
  | known kind content attrs text marks =>
    MayHold kind content ∧ MayHave language kind attrs ∧ MaySay kind text marks ∧
      content.IsChain fun x y => ¬ SameMarks x y
  | foreign _ => False

theorem isChain_of_ofKind {kinds : List NodeKind} (hk : NodeKind.text ∉ kinds) {xs : List Node}
    (h : ∀ x ∈ xs, x.OfKind kinds) : xs.IsChain fun x y => ¬ SameMarks x y := by
  refine (List.pairwise_of_forall_mem_list ?_).isChain
  rintro x hx y hy ⟨marks, hm, -⟩
  have hkind := h x hx
  unfold runMarks? at hm
  split at hm
  · exact hk hkind
  · cases hm

theorem maySay_nothing {kind : NodeKind} (h : kind ≠ .text) : MaySay kind none [] := by
  cases kind <;> simp_all [MaySay]

theorem canonical_branch {language : Json → Prop} {kind : NodeKind} {xs : List Node}
    {attrs : Fields} (hkind : kind ≠ .text) (hold : MayHold kind xs)
    (hattrs : MayHave language kind attrs) (hchain : xs.IsChain fun x y => ¬ SameMarks x y) :
    Canonical language (branch kind xs attrs) :=
  ⟨hold, hattrs, maySay_nothing hkind, hchain⟩

section Inline

/-- A hard break, or a run that is not empty with no code mark but the last one. -/
def InlinePiece (x : Node) : Prop :=
  x = hardBreak ∨ ∃ s marks, x = run s marks ∧ s ≠ "" ∧ CodeLast marks

theorem InlinePiece.merge {x y z : Node} (hx : InlinePiece x) (hz : merge? x y = some z) :
    InlinePiece z := by
  obtain ⟨c, a, t, m, c', a', t', rfl, rfl, rfl⟩ := merge?_eq_some_iff.mp hz
  rcases hx with hx | ⟨s, marks, hx, hs, hm⟩
  · cases hx
  · cases hx
    exact .inr ⟨_, _, rfl, by simp [hs], hm⟩

theorem InlinePiece.ofKind {x : Node} (hx : InlinePiece x) : x.OfKind inlineKinds := by
  rcases hx with rfl | ⟨s, marks, rfl, -, -⟩ <;> simp [OfKind, inlineKinds, hardBreak, run]

theorem InlinePiece.content_eq_nil {x : Node} (hx : InlinePiece x) : x.content = [] := by
  rcases hx with rfl | ⟨s, marks, rfl, -, -⟩ <;> rfl

theorem InlinePiece.canonical {language : Json → Prop} {x : Node} (hx : InlinePiece x) :
    Canonical language x := by
  rcases hx with rfl | ⟨s, marks, rfl, hs, hm⟩
  · exact ⟨rfl, rfl, ⟨rfl, rfl⟩, .nil⟩
  · exact ⟨rfl, rfl, ⟨⟨s, rfl, hs⟩, hm⟩, .nil⟩

theorem everywhere_of_inlinePieces {P : Node → Prop} {x : Node}
    (hx : ∀ y ∈ x.content, InlinePiece y) (htop : P x) (h : ∀ y ∈ x.content, P y) :
    x.Everywhere P :=
  everywhere_iff.mpr ⟨htop, fun y hy =>
    everywhere_of_content_eq_nil (hx y hy).content_eq_nil (h y hy)⟩

end Inline

end Node

open Node

namespace Token

theorem codeLast_of_forall {marks : List Mark} (h : ∀ m ∈ marks, m.kind ≠ .code) :
    CodeLast marks := fun m hm => h m (List.dropLast_subset marks hm)

theorem kind_of_mem_ownMarks {t : Token} {m : Mark} (hm : m ∈ t.ownMarks) : m.kind ≠ .code := by
  rcases mem_ownMarks_cases hm with rfl | rfl | ⟨-, rfl⟩ <;> nofun

theorem inlinePiece_of_mem (t : Token) : ∀ marks : List Mark, (∀ m ∈ marks, m.kind ≠ .code) →
    ∀ x ∈ inlineNodes marks t, InlinePiece x := by
  induction t using Token.induct with
  | step t ih =>
    intro marks hmarks x hx
    rcases mem_inlineNodes_cases hx with ⟨s, hs, rfl | rfl⟩ | rfl | ⟨u, hu, hx⟩
    · exact .inr ⟨s, _, rfl, hs, codeLast_of_forall hmarks⟩
    · exact .inr ⟨s, _, rfl, hs, by simpa [CodeLast] using hmarks⟩
    · exact .inl rfl
    · have hown : ∀ m ∈ t.ownMarks, m.kind ≠ .code := fun m hm => kind_of_mem_ownMarks hm
      exact ih u hu _ (List.forall_mem_append.mpr ⟨hmarks, hown⟩) x hx

theorem inlinePiece_of_mem_inlineContent (ts : List Token) :
    ∀ x ∈ inlineContent ts, InlinePiece x := by
  refine forall_mem_consolidate (fun x y z hx _ hz => hx.merge hz) fun x hx => ?_
  rw [inlineNodesOf_eq_flatMap, List.mem_flatMap] at hx
  obtain ⟨t, -, hx⟩ := hx
  exact inlinePiece_of_mem t [] (by simp) x hx

theorem ofKind_blockKinds {t : Token} {x : Node} (h : block? t = some x) :
    x.OfKind blockKinds := by
  rcases block?_cases h with
    ⟨kind, attrs, ⟨-, rfl, -⟩ | ⟨-, rfl, -⟩, -, rfl⟩ | ⟨-, rfl⟩ | ⟨-, rfl⟩ | ⟨-, rfl⟩
  · simp [Node.branch, OfKind, blockKinds]
  · simp [Node.branch, OfKind, blockKinds]
  · simp [codeBlock, Node.branch, OfKind, blockKinds]
  · cases hord : t.ordered <;> simp [list, hord, Node.branch, OfKind, blockKinds]
  · simp [quotation, Node.branch, OfKind, blockKinds]

theorem forall_mem_blocks_ofKind (ts : List Token) : ∀ x ∈ blocks ts, x.OfKind blockKinds := by
  intro x hx
  obtain ⟨t, -, hx⟩ := exists_of_mem_blocks hx
  exact ofKind_blockKinds hx

theorem forall_mem_items_ofKind (ts : List Token) : ∀ x ∈ items ts, x.OfKind [.listItem] := by
  intro x hx
  obtain ⟨t, -, -, rfl⟩ := exists_of_mem_items hx
  simp [item, Node.branch, OfKind]

section Blocks

variable {language : Json → Prop}

def CodeLanguage (language : Json → Prop) (t : Token) : Prop :=
  t.name = "block_code" → ∀ v, t.attr? "language" = some v → v.truthy = true → language v

theorem mayHave_codeAttrs {t : Token} (hname : t.name = "block_code")
    (h : CodeLanguage language t) : MayHave language .codeBlock t.codeAttrs := by
  unfold codeAttrs
  split
  · next v hv =>
    split
    · next htrue => exact .inr ⟨v, h hname v hv htrue, rfl⟩
    · exact .inl rfl
  · exact .inl rfl

theorem mayHave_listAttrs {t : Token} (h : t.ordered = true) :
    MayHave language .orderedList t.listAttrs := by
  simp only [listAttrs, h, Bool.true_and]
  cases hs : ((t.attr? "start").getD (.int 1)).same (.int 1) with
  | true => exact .inl rfl
  | false => exact .inr ⟨_, hs, rfl⟩

theorem canonical_text {t : Token} {kind : NodeKind} {attrs : Fields}
    (htext : t.Textual kind attrs) (hne : inlineContent t.children ≠ []) :
    (Node.branch kind (inlineContent t.children) attrs).Everywhere (Canonical language) := by
  have hpieces := inlinePiece_of_mem_inlineContent t.children
  have hkinds : ∀ x ∈ inlineContent t.children, x.OfKind inlineKinds :=
    fun x hx => (hpieces x hx).ofKind
  refine everywhere_of_inlinePieces hpieces ?_ fun x hx => (hpieces x hx).canonical
  rcases htext with ⟨-, rfl, rfl⟩ | ⟨-, rfl, rfl⟩
  · exact canonical_branch (by decide) ⟨hne, hkinds⟩ rfl (isChain_consolidate _)
  · exact canonical_branch (by decide) ⟨hne, hkinds⟩ ⟨_, rfl⟩ (isChain_consolidate _)

theorem content_codeBlock (t : Token) :
    t.codeBlock.content = [] ∨ ∃ s, s ≠ "" ∧ t.codeBlock.content = [run s []] := by
  by_cases hraw : t.raw = ""
  · exact .inl (if_pos hraw)
  · exact .inr ⟨t.raw, hraw, if_neg hraw⟩

theorem exists_of_mem_codeBlock {t : Token} {x : Node} (hx : x ∈ t.codeBlock.content) :
    ∃ s, s ≠ "" ∧ x = run s [] := by
  rcases content_codeBlock t with h | ⟨s, hs, h⟩
  · rw [h] at hx
    cases hx
  · rw [h, List.mem_singleton] at hx
    exact ⟨s, hs, hx⟩

theorem inlinePiece_of_mem_codeBlock {t : Token} {x : Node} (hx : x ∈ t.codeBlock.content) :
    InlinePiece x := by
  obtain ⟨s, hs, rfl⟩ := exists_of_mem_codeBlock hx
  exact .inr ⟨s, [], rfl, hs, codeLast_of_forall (by simp)⟩

theorem canonical_codeBlock {t : Token} (hname : t.name = "block_code")
    (h : CodeLanguage language t) : t.codeBlock.Everywhere (Canonical language) := by
  have hchain : t.codeBlock.content.IsChain fun x y => ¬ SameMarks x y := by
    rcases content_codeBlock t with hc | ⟨s, -, hc⟩ <;> simp [hc]
  have hold : MayHold .codeBlock t.codeBlock.content :=
    (content_codeBlock t).imp_right fun ⟨s, _, hc⟩ => ⟨s, hc⟩
  exact everywhere_of_inlinePieces (fun _ => inlinePiece_of_mem_codeBlock)
    (canonical_branch (by decide) hold (mayHave_codeAttrs hname h) hchain)
    fun _ hx => (inlinePiece_of_mem_codeBlock hx).canonical

theorem canonical_blocks {kind : NodeKind} (hkind : kind ∈ [.doc, .blockquote, .listItem])
    (ts : List Token) : Canonical language (.branch kind (blocks ts) []) := by
  have hchain := isChain_of_ofKind (by decide) (forall_mem_blocks_ofKind ts)
  simp only [List.mem_cons, List.not_mem_nil, or_false] at hkind
  rcases hkind with rfl | rfl | rfl <;>
    exact canonical_branch (by decide) (forall_mem_blocks_ofKind ts) rfl hchain

theorem canonical_list (t : Token) : Canonical language t.list := by
  have hkinds := forall_mem_items_ofKind t.children
  have hchain := isChain_of_ofKind (by decide) hkinds
  unfold list
  cases hord : t.ordered with
  | true =>
    exact canonical_branch (by decide) hkinds (mayHave_listAttrs hord) hchain
  | false =>
    have hattrs : t.listAttrs = [] := by simp [listAttrs, hord]
    exact canonical_branch (by decide) hkinds hattrs hchain

theorem handsOn_canonical : HandsOn (CodeLanguage language) (Canonical language) where
  text _ _ _ _ htext hne := canonical_text htext hne
  code _ hlang hname := canonical_codeBlock hname hlang
  list t _ _ := canonical_list t
  quotation t _ := canonical_blocks (by simp) t.children
  item t _ := canonical_blocks (by simp) t.children

theorem everywhere_canonical_ofTokens {tokens : List Token}
    (h : ∀ t ∈ tokens, t.Everywhere (CodeLanguage language)) :
    (Node.ofTokens tokens).Everywhere (Canonical language) :=
  handsOn_canonical.everywhere_ofTokens h (canonical_blocks (by simp) tokens)

end Blocks

end Token

/-- Every node of a document made from tokens is canonical, whatever the tokens; made from the
canonical tokens of any others it has no language but texts that are not empty. -/
theorem ofTokens_everywhere_canonical :
    (∀ tokens : List Token,
      (Node.ofTokens tokens).Everywhere (Canonical fun v => v.truthy = true)) ∧
    ∀ (table : LinkDestination.Table) (raw : List Token),
      (Node.ofTokens (Token.canonicalList table raw)).Everywhere
        (Canonical fun v => ∃ s, s ≠ "" ∧ v = .text s) := by
  constructor
  · intro tokens
    exact Token.everywhere_canonical_ofTokens fun t _ s _ _ v _ htrue => htrue
  · intro table raw
    refine Token.everywhere_canonical_ofTokens
      (Token.forall_mem_canonicalList (Q := fun _ => True) ?_ fun _ _ _ _ => trivial)
    intro t c _ hc hname v hv _
    exact Token.canonical?_language hc hname hv

end AdfMarkdown
