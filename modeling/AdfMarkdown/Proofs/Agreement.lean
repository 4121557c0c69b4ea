import AdfMarkdown.Proofs.Lossless
import AdfMarkdown.Proofs.Renderable

/-! # Rendering a tree and rendering what it writes

Reading back drops the links that lead nowhere, fills in missing texts and brings attributes into
range. Rendering gives the same without this, as long as the attributes that a node has are of the
right type, so a tree renders as its JSON does.
-/

namespace AdfMarkdown

theorem Mark.any_reread? {kind : MarkKind} (h : kind ≠ .link) (m : Mark) :
    m.reread?.any (·.kind == kind) = (m.kind == kind) := by
  by_cases hm : m.kind = .link
  · have hne : (m.kind == kind) = false := by simpa [hm] using h.symm
    by_cases hs : m.href.getD "" = ""
    · simp [Mark.reread?, hm, hs, h.symm]
    · simp [Mark.reread?, Mark.link, hm, hs]
  · simp [Mark.reread?, hm]

theorem hasMark_reread? {kind : MarkKind} (h : kind ≠ .link) (marks : List Mark) :
    hasMark kind (marks.filterMap Mark.reread?) = hasMark kind marks := by
  rw [hasMark, hasMark, List.any_filterMap]
  refine congrArg marks.any (funext fun m => ?_)
  rw [← Mark.any_reread? h m]
  cases m.reread? <;> rfl

theorem Mark.bind_reread?_destination? (m : Mark) :
    m.reread?.bind Mark.destination? = m.destination? := by
  obtain ⟨kind, href⟩ := m
  by_cases hk : kind = .link
  · cases href with
    | none => simp [Mark.reread?, Mark.destination?, hk]
    | some s => by_cases hs : s = "" <;> simp [Mark.reread?, Mark.destination?, Mark.link, hk, hs]
  · simp [Mark.reread?, Mark.destination?, hk]

theorem applyMarks_reread? (text : String) (marks : List Mark) :
    applyMarks text (marks.filterMap Mark.reread?) = applyMarks text marks := by
  have hdestination : lastDestination (marks.filterMap Mark.reread?) = lastDestination marks := by
    simp only [lastDestination, List.filterMap_filterMap, Mark.bind_reread?_destination?]
  have hemphasized : emphasized text (marks.filterMap Mark.reread?) = emphasized text marks := by
    have hcode : MarkKind.code ≠ .link := by decide
    have hstrong : MarkKind.strong ≠ .link := by decide
    have hem : MarkKind.em ≠ .link := by decide
    simp only [emphasized, hasMark_reread? hcode, hasMark_reread? hstrong, hasMark_reread? hem]
  rw [applyMarks, applyMarks, hdestination, hemphasized]

namespace Node

section Inline

theorem inlineText_reread {x : Node} (h : Genuine x) : x.reread.inlineText = x.inlineText := by
  cases x with
  | foreign name => rw [reread_foreign h]
  | known kind content attrs text marks =>
    cases kind with
    | text => simpa [reread, run, inlineText] using applyMarks_reread? (text.getD "") marks
    | _ => rfl

theorem literalText_reread {x : Node} (h : Genuine x) : x.reread.literalText = x.literalText := by
  cases x with
  | foreign name => rw [reread_foreign h]
  | known kind content attrs text marks => cases kind <;> rfl

theorem renderInline_reread {xs : List Node} (h : ∀ x ∈ xs, Genuine x) :
    renderInline (rereadAll xs) = renderInline xs := by
  rw [renderInline, renderInline, rereadAll_eq_map, List.map_map]
  exact congrArg _ (List.map_congr_left fun x hx => inlineText_reread (h x hx))

theorem plainText_reread {xs : List Node} (h : ∀ x ∈ xs, Genuine x) :
    plainText (rereadAll xs) = plainText xs := by
  rw [plainText, plainText, rereadAll_eq_map, List.map_map]
  exact congrArg _ (List.map_congr_left fun x hx => literalText_reread (h x hx))

end Inline

section Attributes

variable {attrs : Fields}

theorem levelOf_attributesFor
    (h : ∀ v, Fields.get? "level" attrs = some v → ∃ n : Nat, 1 ≤ n ∧ n ≤ 6 ∧ v = .int n) :
    levelOf (attributesFor .heading (.object attrs)) = levelOf attrs := by
  cases hv : Fields.get? "level" attrs with
  | none =>
    have hattrs : attributesFor .heading (.object attrs) = [("level", .int 1)] := by
      simp [attributesFor, Json.get?, hv, headingLevel, numericValue?]
    rw [hattrs, levelOf, levelOf, hv]
    rfl
  | some v =>
    obtain ⟨n, h1, h6, rfl⟩ := h v hv
    have hattrs : attributesFor .heading (.object attrs) = [("level", .int n)] := by
      rw [← attributesFor_heading h1 h6]
      simp [attributesFor, Json.get?, Fields.get?, hv]
    rw [hattrs, levelOf, levelOf, hv]
    rfl

theorem orderOf_attributesFor
    (h : ∀ v, Fields.get? "order" attrs = some v → ∃ n : Nat, v = .int n) :
    orderOf (attributesFor .orderedList (.object attrs)) = orderOf attrs := by
  cases hv : Fields.get? "order" attrs with
  | none => simp [attributesFor, Json.get?, orderOf, hv]
  | some v =>
    obtain ⟨n, rfl⟩ := h v hv
    simp [attributesFor, Json.get?, orderOf, hv, listOrder?, Fields.get?, Json.asNumber]

theorem languageOf_attributesFor
    (h : ∀ v, Fields.get? "language" attrs = some v → ∃ s, v = .text s) :
    languageOf (attributesFor .codeBlock (.object attrs)) = languageOf attrs := by
  cases hv : Fields.get? "language" attrs with
  | none => simp [attributesFor, Json.get?, languageOf, hv]
  | some v =>
    obtain ⟨s, rfl⟩ := h v hv
    by_cases hs : s = "" <;>
      simp [attributesFor, Json.get?, languageOf, hv, codeLanguage?, Fields.get?, Json.inserted, hs]

end Attributes

/-- The attributes that a node of the kind has are of the right type and in range, and a node whose
kind is not known has a name that no kind has. -/
def Typed : Node → Prop
  | known .heading _ attrs _ _ =>
    ∀ v, Fields.get? "level" attrs = some v → ∃ n : Nat, 1 ≤ n ∧ n ≤ 6 ∧ v = .int n
  | known .orderedList _ attrs _ _ =>
    ∀ v, Fields.get? "order" attrs = some v → ∃ n : Nat, v = .int n
  | known .codeBlock _ attrs _ _ =>
    ∀ v, Fields.get? "language" attrs = some v → ∃ s, v = .text s
  | known .. => True
  | foreign name => NodeKind.ofName? name = none

theorem Typed.genuine {x : Node} (h : Typed x) : Genuine x := by
  rintro name rfl
  exact h

theorem renderBlocks_map_congr {f : Node → Node} {xs : List Node}
    (h : ∀ x ∈ xs, renderBlock (f x) = renderBlock x) :
    renderBlocks (xs.map f) = renderBlocks xs := by
  induction xs with
  | nil => rfl
  | cons x xs ih =>
    rw [List.forall_mem_cons] at h
    rw [List.map_cons, renderBlocks, renderBlocks, h.1, ih h.2]

theorem renderBlock_reread (x : Node) : x.Everywhere Typed →
    renderBlock x.reread = renderBlock x := by
  induction x using Node.induct with
  | step x ih =>
    intro h
    obtain ⟨hself, hbelow⟩ := everywhere_iff.mp h
    cases x with
    | foreign name => rw [reread_foreign hself.genuine]
    | known kind content attrs text marks =>
      have hgen : ∀ y ∈ content, Genuine y := fun y hy => (hbelow y hy y (.self y)).genuine
      have hcontent : ∀ y ∈ content, renderBlock y.reread = renderBlock y :=
        fun y hy => ih y hy (hbelow y hy)
      have hinline := renderInline_reread hgen
      have hplain := plainText_reread hgen
      have hblocks : renderBlocks (rereadAll content) = renderBlocks content := by
        rw [rereadAll_eq_map]
        exact renderBlocks_map_congr hcontent
      have hitems : renderItems (rereadAll content) = renderItems content := by
        have hfilter : (content.map reread).filter isItem = (content.filter isItem).map reread := by
          rw [List.filter_map]
          exact congrArg _ (List.filter_congr fun y hy => (reread_kind (hgen y hy)).2.1)
        rw [renderItems_eq, renderItems_eq, rereadAll_eq_map, hfilter]
        exact renderBlocks_map_congr fun y hy => hcontent y (List.mem_filter.mp hy).1
      cases kind with
      | heading =>
        simp only [reread, branch, renderBlock, hinline, levelOf_attributesFor hself]
      | codeBlock =>
        simp only [reread, branch, renderBlock, hplain, languageOf_attributesFor hself]
      | orderedList =>
        simp only [reread, branch, renderBlock, hitems, orderOf_attributesFor hself]
      | _ => simp only [reread, branch, run, hardBreak, renderBlock, hinline, hblocks, hitems]

/-- The numbers of the items of a list have few enough digits. -/
def NumbersFit : Node → Prop
  | known .orderedList content attrs _ _ => ∀ first, orderOf attrs = .ok first →
    ∀ i < (content.filter isItem).length, (first + i).natAbs < Nat.pow 10 Json.maxDigits
  | _ => True

theorem Typed.renders {x : Node} (h : Typed x) (hfit : NumbersFit x) : Renders x := by
  cases x with
  | foreign name => trivial
  | known kind content attrs text marks =>
    cases kind with
    | heading =>
      cases hv : Fields.get? "level" attrs with
      | none => exact ⟨1, by rw [levelOf, hv]⟩
      | some v =>
        obtain ⟨n, -, -, rfl⟩ := h v hv
        exact ⟨n, by rw [levelOf, hv]; rfl⟩
    | orderedList =>
      obtain ⟨first, horder⟩ : ∃ first, orderOf attrs = .ok first := by
        cases hv : Fields.get? "order" attrs with
        | none => exact ⟨1, by rw [orderOf, hv]⟩
        | some v =>
          obtain ⟨n, rfl⟩ := h v hv
          exact ⟨n, by rw [orderOf, hv]; rfl⟩
      exact ⟨first, horder, hfit first horder⟩
    | _ => trivial

def isLeaf : Node → Bool
  | known .text .. | known .hardBreak .. => true
  | _ => false

end Node

namespace Rendering

open Node

theorem ofBlocks_rereadAll {xs : List Node} (h : ∀ x ∈ xs, x.Everywhere Typed) :
    ofBlocks (rereadAll xs) = ofBlocks xs := by
  have hrender : renderBlocks (rereadAll xs) = renderBlocks xs := by
    rw [rereadAll_eq_map]
    exact renderBlocks_map_congr fun x hx => renderBlock_reread x (h x hx)
  have hskipped : skippedInBlocks (rereadAll xs) = skippedInBlocks xs := by
    rw [rereadAll_eq_map, skippedInBlocks_eq_flatMap, skippedInBlocks_eq_flatMap, List.flatMap_map]
    exact List.flatMap_congr fun x hx =>
      skippedInBlock_reread x fun y hy => (h x hx y hy).genuine
  rw [ofBlocks, ofBlocks, hrender, hskipped]

theorem ofJson_toJson_eq_ofNode {x : Node} (hleaf : x.isLeaf = false) (h : x.Everywhere Typed) :
    ofJson x.toJson = ofNode x := by
  cases x with
  | foreign name => rfl
  | known kind content attrs text marks =>
    have ht : kind ≠ .text := by rintro rfl; cases hleaf
    have hb : kind ≠ .hardBreak := by rintro rfl; cases hleaf
    rw [ofJson_toJson ht hb]
    exact ofBlocks_rereadAll (everywhere_iff.mp h).2

/-- A tree whose root is no leaf renders as what it writes, text and warnings alike, as long as its
attributes are of the right type and every item number that rendering comes to has few enough
digits. -/
theorem ofNode_agrees_ofJson {x : Node} (hleaf : x.isLeaf = false) (h : x.Everywhere Typed)
    (hfit : ∀ top ∈ x.content, ∀ y, top.Reaches .block .block y → y.NumbersFit) :
    ∃ r, ofNode x = .ok r ∧ ofJson x.toJson = .ok r := by
  have hblocks : ∀ top ∈ x.content, ∃ s, renderBlock top = .ok s := by
    intro top htop
    have htyped := (everywhere_iff.mp h).2 top htop
    exact exists_renderBlock_of_reaches top fun y hy =>
      (everywhere_of_reaches hy htyped).renders (hfit top htop y hy)
  obtain ⟨parts, hparts, -⟩ := exists_renderBlocks hblocks
  have hnode : ofNode x = .ok ⟨Text.joinNonempty "\n\n" parts,
      (SkippedNames.ofList (skippedInBlocks x.content)).warnings⟩ := by
    rw [ofNode, ofBlocks, hparts]
    rfl
  exact ⟨_, hnode, (ofJson_toJson_eq_ofNode hleaf h).trans hnode⟩

/-- A list from zero with a text that is missing, links that lead nowhere, stray fields and nodes of
unknown kinds. -/
theorem ofNode_agrees_ofJson_nested :
    let text : Node :=
      known .text [hardBreak] [("level", .int 9)] none
        [⟨.link, none⟩, ⟨.link, some ""⟩, ⟨.em, some "u"⟩]
    let item : Node := known .listItem [branch .heading [text, foreign "mention"] []] [] none []
    let list : Node :=
      known .orderedList [item, foreign "rule", item] [("order", .int 0)] (some "") []
    let code : Node := branch .codeBlock [text, hardBreak] [("language", .text "")]
    let x : Node := branch .blockquote [list, code, text, hardBreak] [("order", .null)]
    x.Everywhere Typed ∧ ∃ r, ofNode x = .ok r ∧ ofJson x.toJson = .ok r := by
  intro text item list code x
  have htyped : x.Everywhere Typed := by
    have hzero : ∃ n : Nat, (0 : Int) = n := ⟨0, rfl⟩
    simpa [x, code, list, item, text, branch, hardBreak, everywhere_known, everywhere_foreign,
      Typed, Fields.get?] using ⟨hzero, by decide, by decide⟩
  have hlist : NumbersFit list := by
    intro first horder i hi
    obtain rfl : 0 = first := Except.ok.inj horder
    have hi : i < 2 := hi
    have hpow := le_pow_maxDigits
    omega
  have hbelow : list.Everywhere NumbersFit := by
    refine everywhere_known.mpr ⟨hlist, ?_⟩
    simp [item, text, branch, hardBreak, everywhere_known, everywhere_foreign, NumbersFit]
  have hfit : x.Everywhere NumbersFit := by
    simpa [x, code, text, branch, hardBreak, everywhere_known, NumbersFit] using hbelow
  refine ⟨htyped, ofNode_agrees_ofJson rfl htyped fun top htop y hy => ?_⟩
  exact everywhere_of_reaches hy ((everywhere_iff.mp hfit).2 top htop)

end Rendering

end AdfMarkdown
