import AdfMarkdown.Proofs.Lines
import AdfMarkdown.Proofs.Omitting

/-! # Documents rendered in parts

A document, or a list item, renders to what the two parts of its content render to, with one
separator between them unless one of them is empty. So a block that renders empty can be put
anywhere among blocks without a trace, at any depth.
-/

namespace AdfMarkdown

namespace Text

/-- Two texts with the separator between them, or the one that is not empty. -/
def glue (sep s t : String) : String := if s = "" then t else if t = "" then s else s ++ sep ++ t

theorem join_append_eq_glue {sep : String} {ss ts : List String} (hs : ∀ s ∈ ss, s ≠ "")
    (ht : ∀ t ∈ ts, t ≠ "") : join sep (ss ++ ts) = glue sep (join sep ss) (join sep ts) := by
  cases ss with
  | nil => rfl
  | cons s ss =>
    have hne : join sep (s :: ss) ≠ "" := join_cons_ne_empty (hs s List.mem_cons_self) ss
    cases ts with
    | nil => simp [glue]
    | cons t ts =>
      have hne' : join sep (t :: ts) ≠ "" := join_cons_ne_empty (ht t List.mem_cons_self) ts
      rw [glue, if_neg hne, if_neg hne']
      exact join_append (List.cons_ne_nil s ss) (List.cons_ne_nil t ts)

theorem joinNonempty_append (sep : String) (ss ts : List String) :
    joinNonempty sep (ss ++ ts) = glue sep (joinNonempty sep ss) (joinNonempty sep ts) := by
  have hne (ss : List String) : ∀ s ∈ ss.filter (· ≠ ""), s ≠ "" := by simp
  rw [joinNonempty, List.filter_append]
  exact join_append_eq_glue (hne ss) (hne ts)

end Text

namespace Fields

def contentItems (fields : Fields) : List Json :=
  match get? "content" fields with
  | some (.array items) => items
  | _ => []

def withContent (items : List Json) (fields : Fields) : Fields :=
  put "content" (.array items) fields

theorem get?_withContent {key : String} (h : key ≠ "content") (items : List Json)
    (fields : Fields) : get? key (withContent items fields) = get? key fields :=
  get?_put_of_ne h (.array items) fields

end Fields

namespace Node

theorem ofItems_append (items items' : List Json) :
    ofItems (items ++ items') = ofItems items ++ ofItems items' := by
  simp only [ofItems_eq_map, List.filterMap_append, List.map_append]

theorem contentOfFields_eq_ofItems (fields : Fields) :
    contentOfFields fields = ofItems fields.contentItems := by
  rw [contentOfFields_eq, Fields.contentItems]
  cases Fields.get? "content" fields with
  | none => rfl
  | some v => cases v <;> rfl

theorem contentOfFields_withContent (items : List Json) (fields : Fields) :
    contentOfFields (fields.withContent items) = ofItems items := by
  rw [contentOfFields_eq, Fields.withContent, Fields.get?_put_self]
  rfl

theorem ofFields_withContent (items : List Json) (fields : Fields) :
    ofFields (fields.withContent items) = assemble fields (ofItems items) := by
  rw [ofFields, contentOfFields_withContent]
  exact assemble_congr (fun _ h => Fields.get?_withContent h items fields) _

theorem renderBlocks_append {xs ys : List Node} {ss ts : List String}
    (hx : renderBlocks xs = .ok ss) (hy : renderBlocks ys = .ok ts) :
    renderBlocks (xs ++ ys) = .ok (ss ++ ts) :=
  renderBlocks_eq_ok_iff.mpr <|
    List.rel_append (renderBlocks_eq_ok_iff.mp hx) (renderBlocks_eq_ok_iff.mp hy)

end Node

namespace Rendering

def names (r : Rendering) : List String :=
  r.warnings.filterMap fun w => (Fields.get? "node_type" w.context).bind Json.text?

/-- The third rendering is the first two with the separator between them, and it names once and in
order what either of them names. -/
structure Joins (sep : String) (r s t : Rendering) : Prop where
  markdown_eq : t.markdown = Text.glue sep r.markdown s.markdown
  sorted : t.names.Pairwise (· < ·)
  mem_names_iff : ∀ name, name ∈ t.names ↔ name ∈ r.names ∨ name ∈ s.names

def separated (sep : String) (xs : List Node) : Except RenderError Rendering := do
  let parts ← Node.renderBlocks xs
  return ⟨Text.joinNonempty sep parts, (SkippedNames.ofList (Node.skippedInBlocks xs)).warnings⟩

/-- A node as a block on its own: what it gives wherever blocks stand, and as an item of a list. -/
def ofBlock (x : Node) : Except RenderError Rendering := do
  let markdown ← Node.renderBlock x
  return ⟨markdown, (SkippedNames.ofList (Node.skippedInBlock x)).warnings⟩

theorem names_of_warnings {r : Rendering} {s : SkippedNames} (h : r.warnings = s.warnings) :
    r.names = s.names := by
  have hname (name : String) :
      (Fields.get? "node_type" (Warning.skipped name).context).bind Json.text? = some name := rfl
  rw [names, h, SkippedNames.warnings, List.filterMap_map]
  simp only [Function.comp_def, hname, List.filterMap_some]

theorem exists_joins_separated {sep : String} {xs ys : List Node} {r s : Rendering}
    (hx : separated sep xs = .ok r) (hy : separated sep ys = .ok s) :
    ∃ t, separated sep (xs ++ ys) = .ok t ∧ Joins sep r s t := by
  obtain ⟨ss, hss, hr⟩ := exists_of_bind_eq_ok hx
  obtain ⟨ts, hts, hs⟩ := exists_of_bind_eq_ok hy
  obtain rfl := Except.ok.inj hr
  obtain rfl := Except.ok.inj hs
  have hskipped : Node.skippedInBlocks (xs ++ ys) =
      Node.skippedInBlocks xs ++ Node.skippedInBlocks ys := by
    simp only [Node.skippedInBlocks_eq_flatMap, List.flatMap_append]
  refine ⟨⟨_, _⟩, by rw [separated, Node.renderBlocks_append hss hts]; rfl, ?_⟩
  refine ⟨Text.joinNonempty_append sep ss ts, ?_, fun name => ?_⟩
  · rw [names_of_warnings rfl]
    exact SkippedNames.sorted _
  · rw [names_of_warnings rfl, names_of_warnings rfl, names_of_warnings rfl]
    simp only [SkippedNames.mem_ofList, hskipped, List.mem_append]

theorem ofJson_withContent (root : Fields) (items : List Json) :
    ofJson (.object (root.withContent items)) = separated "\n\n" (Node.ofItems items) := by
  rw [ofJson, Node.contentOfFields_withContent]
  rfl

theorem ofBlock_withContent {item : Fields} (h : item.kind? = some .listItem)
    (items : List Json) :
    ofBlock (Node.ofFields (item.withContent items)) = separated " " (Node.ofItems items) := by
  have hname : NodeKind.ofName? (((Fields.get? "type" item).bind Json.text?).getD "unknown") =
      some .listItem := h
  have hnode : Node.ofFields (item.withContent items) =
      .branch .listItem (Node.ofItems items)
        (attributesFor .listItem ((Fields.get? "attrs" item).getD .null)) := by
    rw [Node.ofFields_withContent, Node.assemble, hname]
  rw [hnode, Node.branch, ofBlock, Node.renderBlock, Node.skippedInBlock, separated]
  cases Node.renderBlocks (Node.ofItems items) <;> rfl

end Rendering

namespace Node

/-- Each node can stand for the other: they give the same wherever they are. -/
structure Alike (x y : Node) : Prop where
  isItem_eq : x.isItem = y.isItem
  renderBlock_eq : renderBlock x = renderBlock y
  inlineText_eq : inlineText x = inlineText y
  literalText_eq : literalText x = literalText y

theorem Alike.refl (x : Node) : Alike x x := ⟨rfl, rfl, rfl, rfl⟩

/-- Lists of nodes that can stand for each other: as blocks if they are among blocks, and else one
by one. -/
def AlikeAll : Bool → List Node → List Node → Prop
  | true, xs, ys => shownBlocks xs = shownBlocks ys
  | false, xs, ys => List.Forall₂ Alike xs ys

theorem AlikeAll.nil (among : Bool) : AlikeAll among [] [] := by
  cases among with
  | true => rfl
  | false => exact List.Forall₂.nil

theorem AlikeAll.cons {among : Bool} {x y : Node} {xs ys : List Node} (h : Alike x y)
    (hs : AlikeAll among xs ys) : AlikeAll among (x :: xs) (y :: ys) := by
  cases among with
  | true =>
    have hs : shownBlocks xs = shownBlocks ys := hs
    rw [AlikeAll, shownBlocks_cons, shownBlocks_cons, h.renderBlock_eq, hs]
  | false => exact List.Forall₂.cons h hs

/-- A block that renders empty counts for nothing among blocks. -/
theorem AlikeAll.insert {x : Node} {xs ys : List Node} (h : renderBlock x = .ok "")
    (hs : AlikeAll true xs ys) : AlikeAll true xs (x :: ys) := by
  have hs : shownBlocks xs = shownBlocks ys := hs
  rw [AlikeAll, shownBlocks_cons, h, hs]
  cases shownBlocks ys <;> rfl

theorem map_eq_of_forall₂ {α : Type} {f : Node → α} (hf : ∀ x y, Alike x y → f x = f y)
    {xs ys : List Node} (h : List.Forall₂ Alike xs ys) : xs.map f = ys.map f := by
  induction h with
  | nil => rfl
  | cons hxy _ ih => rw [List.map_cons, List.map_cons, hf _ _ hxy, ih]

theorem renderItems_eq_of_forall₂ {xs ys : List Node} (h : List.Forall₂ Alike xs ys) :
    renderItems xs = renderItems ys := by
  induction h with
  | nil => rfl
  | cons hxy _ ih => rw [renderItems, renderItems, hxy.isItem_eq, hxy.renderBlock_eq, ih]

end Node

def NodeKind.holdsBlocks : NodeKind → Bool
  | doc | blockquote | listItem => true
  | _ => false

namespace Node

theorem Alike.branch {kind : NodeKind} {xs ys : List Node} (h : AlikeAll kind.holdsBlocks xs ys)
    (attrs : Fields) : Alike (branch kind xs attrs) (branch kind ys attrs) := by
  refine ⟨by cases kind <;> rfl, ?_, by cases kind <;> rfl, by cases kind <;> rfl⟩
  rw [Node.branch, Node.branch]
  cases kind with
  | paragraph | heading =>
    have hinline : renderInline xs = renderInline ys :=
      congrArg (Text.join "") (map_eq_of_forall₂ (fun _ _ h => h.inlineText_eq) h)
    rw [renderBlock, renderBlock, hinline]
  | codeBlock =>
    have hplain : plainText xs = plainText ys :=
      congrArg (Text.join "") (map_eq_of_forall₂ (fun _ _ h => h.literalText_eq) h)
    rw [renderBlock, renderBlock, hplain]
  | bulletList | orderedList => rw [renderBlock, renderBlock, renderItems_eq_of_forall₂ h]
  | listItem => rw [renderBlock_listItem, renderBlock_listItem, show shownBlocks xs = _ from h]
  | blockquote =>
    rw [renderBlock_blockquote, renderBlock_blockquote, show shownBlocks xs = _ from h]
  | doc | text | hardBreak => rfl

end Node

namespace Fields

def holdsBlocks (fields : Fields) : Bool := (kind? fields).any NodeKind.holdsBlocks

/-- The second items are the first ones with blocks that render empty put in: among the items
themselves if these are blocks, and at any depth among the children of a document, a quotation or a
list item. -/
inductive Padded : Bool → List Json → List Json → Prop where
  | nil (among : Bool) : Padded among [] []
  | insert {block : Fields} {items items' : List Json} :
    Node.renderBlock (Node.ofFields block) = .ok "" → Padded true items items' →
      Padded true items (.object block :: items')
  | keep {among : Bool} {items items' : List Json} (v : Json) :
    Padded among items items' → Padded among (v :: items) (v :: items')
  | inside {among : Bool} {items items' : List Json} {fields : Fields} {content : List Json} :
    Padded fields.holdsBlocks fields.contentItems content → Padded among items items' →
      Padded among (.object fields :: items) (.object (fields.withContent content) :: items')

end Fields

namespace Node

theorem alike_assemble {fields : Fields} {xs ys : List Node}
    (h : AlikeAll fields.holdsBlocks xs ys) : Alike (assemble fields xs) (assemble fields ys) := by
  rw [Fields.holdsBlocks, Fields.kind?, Fields.typeName] at h
  rw [assemble, assemble]
  cases hkind : NodeKind.ofName? (((Fields.get? "type" fields).bind Json.text?).getD "unknown") with
  | none => exact .refl _
  | some kind =>
    rw [hkind, Option.any_some] at h
    cases kind with
    | text | hardBreak => exact .refl _
    | _ => exact .branch h _

theorem AlikeAll.ofItems_cons {among : Bool} {items items' : List Json} (v : Json)
    (h : AlikeAll among (ofItems items) (ofItems items')) :
    AlikeAll among (ofItems (v :: items)) (ofItems (v :: items')) := by
  cases v with
  | object fields =>
    rw [ofItems_object, ofItems_object]
    exact .cons (.refl _) h
  | _ => simpa [ofItems] using h

theorem alikeAll_of_padded {among : Bool} {items items' : List Json}
    (h : Fields.Padded among items items') : AlikeAll among (ofItems items) (ofItems items') := by
  induction h with
  | nil among => exact .nil among
  | insert hempty _ ih =>
    rw [ofItems_object]
    exact .insert hempty ih
  | keep v _ ih => exact .ofItems_cons v ih
  | inside _ _ ihcontent ih =>
    rw [ofItems_object, ofItems_object, ofFields_withContent, ofFields, contentOfFields_eq_ofItems]
    exact .cons (alike_assemble ihcontent) ih

end Node

namespace Rendering

theorem markdown_ofBlocks (xs : List Node) :
    markdown <$> ofBlocks xs = Text.join "\n\n" <$> Node.shownBlocks xs := by
  rw [ofBlocks_eq, Functor.map_map]

/-- Rendering is compositional: the two parts of a content render to what the whole renders to, for
a document and for a list item, each with its separator. Blocks that render empty change no
document. -/
theorem ofJson_composes :
    (∀ (root : Fields) (items items' : List Json) (r s : Rendering),
      ofJson (.object (root.withContent items)) = .ok r →
      ofJson (.object (root.withContent items')) = .ok s →
        ∃ t, ofJson (.object (root.withContent (items ++ items'))) = .ok t ∧
          Joins "\n\n" r s t) ∧
    (∀ (item : Fields) (items items' : List Json) (r s : Rendering),
      item.kind? = some .listItem →
      ofBlock (Node.ofFields (item.withContent items)) = .ok r →
      ofBlock (Node.ofFields (item.withContent items')) = .ok s →
        ∃ t, ofBlock (Node.ofFields (item.withContent (items ++ items'))) = .ok t ∧
          Joins " " r s t) ∧
    ∀ (root : Fields) (items : List Json), Fields.Padded true root.contentItems items →
      markdown <$> ofJson (.object (root.withContent items)) =
        markdown <$> ofJson (.object root) := by
  refine ⟨fun root items items' r s hr hs => ?_, fun item items items' r s hitem hr hs => ?_,
    fun root items h => ?_⟩
  · rw [ofJson_withContent] at hr hs ⊢
    rw [Node.ofItems_append]
    exact exists_joins_separated hr hs
  · rw [ofBlock_withContent hitem] at hr hs ⊢
    rw [Node.ofItems_append]
    exact exists_joins_separated hr hs
  · have halike : Node.shownBlocks (Node.ofItems root.contentItems) =
        Node.shownBlocks (Node.ofItems items) := Node.alikeAll_of_padded h
    rw [ofJson, ofJson, Node.contentOfFields_withContent, Node.contentOfFields_eq_ofItems,
      markdown_ofBlocks, markdown_ofBlocks, halike]

/-- Words among rules and quotations that hold nothing else, as blocks of a document and of an item;
and the same nothing put around the item of a list in a quotation, and within it. -/
theorem ofJson_composes_nested :
    let node (name : String) (content : List Json) : Fields :=
      [("type", .text name), ("content", .array content)]
    let word (s : String) : Json := .object (node "paragraph"
      [.object [("type", .text "text"), ("text", .text s)]])
    let rule : Json := .object [("type", .text "rule")]
    let hollow : Json := .object (node "blockquote" [rule, .object (node "paragraph" [])])
    let document (blocks : List Json) : Json := .object (node "doc" blocks)
    let item (blocks : List Json) : Fields := node "listItem" blocks
    let quotation (blocks : List Json) : Json := .object (node "blockquote" blocks)
    let list (blocks : List Json) : Json := .object (node "bulletList" [.object (item blocks)])
    (ofJson (document [rule, word "a"]) = .ok ⟨"a", [.skipped "rule"]⟩ ∧
      ofJson (document [hollow, word "b"]) = .ok ⟨"b", [.skipped "rule"]⟩ ∧
      ∃ t, ofJson (document [rule, word "a", hollow, word "b"]) = .ok t ∧
        Joins "\n\n" ⟨"a", [.skipped "rule"]⟩ ⟨"b", [.skipped "rule"]⟩ t) ∧
    (ofBlock (Node.ofFields (item [word "a"])) = .ok ⟨"a", []⟩ ∧
      ofBlock (Node.ofFields (item [hollow])) = .ok ⟨"", [.skipped "rule"]⟩ ∧
      ∃ t, ofBlock (Node.ofFields (item [word "a", hollow])) = .ok t ∧
        Joins " " ⟨"a", []⟩ ⟨"", [.skipped "rule"]⟩ t) ∧
    Fields.Padded true [quotation [list [word "a"]]]
      [hollow, quotation [rule, list [word "a", hollow], hollow]] ∧
    markdown <$> ofJson (document [hollow, quotation [rule, list [word "a", hollow], hollow]]) =
      markdown <$> ofJson (document [quotation [list [word "a"]]]) := by
  intro node word rule hollow document item quotation list
  have hpadded : Fields.Padded true [quotation [list [word "a"]]]
      [hollow, quotation [rule, list [word "a", hollow], hollow]] := by
    have hitem : Fields.Padded true [word "a"] [word "a", hollow] :=
      .keep _ (.insert rfl (.nil _))
    have hlist : Fields.Padded true [list [word "a"]] [rule, list [word "a", hollow], hollow] :=
      .insert rfl (.inside (.inside hitem (.nil _)) (.insert rfl (.nil _)))
    exact .insert rfl (.inside hlist (.nil _))
  obtain ⟨hdocument, hitem, hpad⟩ := ofJson_composes
  exact ⟨⟨rfl, rfl, hdocument (node "doc" []) [rule, word "a"] [hollow, word "b"] _ _ rfl rfl⟩,
    ⟨rfl, rfl, hitem (item []) [word "a"] [hollow] _ _ rfl rfl rfl⟩,
    hpadded, hpad (node "doc" [quotation [list [word "a"]]]) _ hpadded⟩

end Rendering

end AdfMarkdown
