import AdfMarkdown.Proofs.Composing
import Mathlib.Logic.Relation

/-! # Edits without effect

Rendering depends on the supported data alone. An object is edited in the fields and attributes that
its kind does not use, in the order and number of its marks, in marks that are none, and in content
that is no object. Each edit takes every node to one that gives the same wherever it stands, so any
number of edits at any depth leaves the Markdown and the warnings of a document as they are.
-/

namespace AdfMarkdown

namespace NodeKind

def usedAttrs : NodeKind → List String
  | heading => ["level"]
  | codeBlock => ["language"]
  | orderedList => ["order"]
  | _ => []

def usedKeys : NodeKind → List String
  | text => ["type", "text", "marks"]
  | hardBreak => ["type"]
  | heading | codeBlock | orderedList => ["type", "content", "attrs"]
  | doc | paragraph | bulletList | listItem | blockquote => ["type", "content"]

end NodeKind

namespace Json

def typeName? (v : Json) : Option String := (v.get? "type").bind text?

def href? (v : Json) : Option String :=
  (((v.get? "attrs").bind (get? "href")).bind text?).filter (· ≠ "")

def linkHref? (v : Json) : Option String := if v.typeName? = some "link" then v.href? else none

/-- No mark: a value that is no object with a type name, an object of an unknown type, or a link
without a destination. -/
def StrayMark (v : Json) : Prop :=
  ∀ name, v.typeName? = some name →
    name ∉ ["strong", "em", "code"] ∧ (name = "link" → v.href? = none)

def items : Json → List Json
  | array items => items
  | _ => []

end Json

namespace Fields

/-- The fields that an object of a known kind, or of an unknown one, uses. -/
def usedKeys (kind? : Option NodeKind) : List String := kind?.elim ["type"] NodeKind.usedKeys

def value (key : String) (fields : Fields) : Json := (get? key fields).getD .null

/-- The second object is the first one, of the kind, after one edit of it or of an object in its
content, at any depth. -/
inductive Edit : Option NodeKind → Fields → Fields → Prop where
  /-- Fields that the kind does not use come, go and change, and all fields change places. -/
  | keys {kind? : Option NodeKind} {fields fields' : Fields} :
    (∀ key ∈ usedKeys kind?, get? key fields' = get? key fields) → Edit kind? fields fields'
  /-- Attributes that the kind does not use come, go and change. -/
  | attrs {kind : NodeKind} {fields : Fields} {v : Json} :
    (∀ key ∈ kind.usedAttrs, v.get? key = (value "attrs" fields).get? key) →
      Edit (some kind) fields (put "attrs" v fields)
  /-- The marks of a text are permuted and repeated, if its links have one destination. -/
  | marks {fields : Fields} {marks : List Json} :
    (∀ m, m ∈ marks ↔ m ∈ (value "marks" fields).items) →
    (∀ m ∈ marks, ∀ m' ∈ marks, ∀ s s', m.linkHref? = some s → m'.linkHref? = some s' → s = s') →
      Edit (some .text) fields (put "marks" (.array marks) fields)
  /-- Something that is no mark is added to the marks of a text. -/
  | stray {fields : Fields} {before after : List Json} {m : Json} :
    (value "marks" fields).items = before ++ after → m.StrayMark →
      Edit (some .text) fields (put "marks" (.array (before ++ m :: after)) fields)
  /-- A value that is no object is added to the content. -/
  | entry {kind? : Option NodeKind} {fields : Fields} {before after : List Json} {v : Json} :
    fields.contentItems = before ++ after → v.object? = none →
      Edit kind? fields (fields.withContent (before ++ v :: after))
  /-- An object in the content is edited. -/
  | inside {kind? : Option NodeKind} {fields child child' : Fields} {before after : List Json} :
    fields.contentItems = before ++ .object child :: after → Edit child.kind? child child' →
      Edit kind? fields (fields.withContent (before ++ .object child' :: after))

theorem kind?_put {key : String} (h : "type" ≠ key) (v : Json) (fields : Fields) :
    kind? (put key v fields) = kind? fields := by
  rw [kind?, kind?, typeName, typeName, get?_put_of_ne h]

theorem value_put_self (key : String) (v : Json) (fields : Fields) :
    value key (put key v fields) = v := by
  rw [value, get?_put_self, Option.getD_some]

end Fields

section Marks

theorem getLast?_eq_of_mem_iff {α : Type} {as bs : List α} (hmem : ∀ a, a ∈ as ↔ a ∈ bs)
    (hsame : ∀ a ∈ as, ∀ b ∈ as, a = b) : as.getLast? = bs.getLast? := by
  cases ha : as.getLast? with
  | none =>
    obtain rfl := List.getLast?_eq_none_iff.mp ha
    exact (List.getLast?_eq_none_iff.mpr (List.eq_nil_iff_forall_not_mem.mpr fun b hb =>
      List.not_mem_nil ((hmem b).mpr hb))).symm
  | some a =>
    have hfirst : a ∈ as := List.mem_of_getLast? ha
    cases hb : bs.getLast? with
    | none =>
      obtain rfl := List.getLast?_eq_none_iff.mp hb
      exact absurd ((hmem a).mp hfirst) List.not_mem_nil
    | some b => rw [hsame a hfirst b ((hmem b).mpr (List.mem_of_getLast? hb))]

/-- The text of a run depends on the set of its marks, if these give one destination at most. -/
theorem applyMarks_eq_of_mem_iff {marks marks' : List Mark} (hmem : ∀ m, m ∈ marks ↔ m ∈ marks')
    (hsame : ∀ m ∈ marks, ∀ m' ∈ marks, ∀ s s', m.destination? = some s →
      m'.destination? = some s' → s = s') (text : String) :
    applyMarks text marks = applyMarks text marks' := by
  have hkind (kind : MarkKind) : hasMark kind marks = hasMark kind marks' := by
    rw [Bool.eq_iff_iff]
    simp only [hasMark, List.any_eq_true, hmem]
  have hlast : lastDestination marks = lastDestination marks' := by
    refine getLast?_eq_of_mem_iff (fun s => ?_) fun s hs s' hs' => ?_
    · simp only [List.mem_filterMap, hmem]
    · obtain ⟨m, hm, hs⟩ := List.mem_filterMap.mp hs
      obtain ⟨m', hm', hs'⟩ := List.mem_filterMap.mp hs'
      exact hsame m hm m' hm' s s' hs hs'
  simp only [applyMarks, emphasized, hkind, hlast]

theorem MarkKind.name_eq_of_ofName? {s : String} {kind : MarkKind}
    (h : MarkKind.ofName? s = some kind) : kind.name = s := by
  simpa using List.find?_some h

theorem Json.map_href? (v : Json) : v.href?.map Mark.link =
    (v.get? "attrs").bind fun attrs => (attrs.get? "href").bind fun href => href.text?.bind fun s =>
      if s = "" then none else some (.link s) := by
  have hfilter (o : Option String) : (o.filter (· ≠ "")).map Mark.link =
      o.bind fun s => if s = "" then none else some (.link s) := by
    cases o with
    | none => rfl
    | some s => by_cases h : s = "" <;> simp [h]
  rw [href?, hfilter, Option.bind_assoc, Option.bind_assoc]

theorem Mark.ofJson?_eq (v : Json) : Mark.ofJson? v =
    (v.typeName?.bind MarkKind.ofName?).bind fun kind =>
      if kind = .link then v.href?.map Mark.link else some ⟨kind, none⟩ := by
  rw [Json.typeName?, Option.bind_assoc, Option.bind_assoc, v.map_href?]
  rfl

theorem Mark.ofJson?_of_strayMark {v : Json} (h : v.StrayMark) : Mark.ofJson? v = none := by
  rw [Mark.ofJson?_eq]
  cases hname : v.typeName? with
  | none => rfl
  | some name =>
    obtain ⟨hother, hlink⟩ := h name hname
    rw [Option.bind_some]
    cases hkind : MarkKind.ofName? name with
    | none => rfl
    | some kind =>
      obtain rfl := MarkKind.name_eq_of_ofName? hkind
      cases kind with
      | link => rw [Option.bind_some, if_pos rfl, hlink rfl, Option.map_none]
      | _ => exact absurd (by decide) hother

theorem linkHref?_of_ofJson? {v : Json} {m : Mark} {s : String} (hm : Mark.ofJson? v = some m)
    (hs : m.destination? = some s) : v.linkHref? = some s := by
  rw [Mark.ofJson?_eq] at hm
  obtain ⟨kind, hkind, hm⟩ := Option.bind_eq_some_iff.mp hm
  obtain ⟨name, hname, hkind⟩ := Option.bind_eq_some_iff.mp hkind
  obtain rfl := MarkKind.name_eq_of_ofName? hkind
  split_ifs at hm with hlink
  · subst hlink
    obtain ⟨href, hhref, rfl⟩ := Option.map_eq_some_iff.mp hm
    rw [Json.linkHref?, if_pos (show v.typeName? = some "link" from hname), hhref]
    unfold Mark.destination? at hs
    split_ifs at hs
    exact hs
  · obtain rfl := Option.some.inj hm
    rw [Mark.destination?, if_neg fun h => hlink h.1] at hs
    cases hs

end Marks

namespace Node

/-- Each node can stand for the other, and the same type names are left out of them. -/
structure Indistinct (x y : Node) : Prop extends Alike x y where
  skippedAt_eq : ∀ p, skippedAt p x = skippedAt p y

theorem Indistinct.refl (x : Node) : Indistinct x x := ⟨.refl x, fun _ => rfl⟩

theorem AlikeAll.of_forall₂ {xs ys : List Node} (h : List.Forall₂ Alike xs ys) (among : Bool) :
    AlikeAll among xs ys := by
  induction h with
  | nil => exact .nil among
  | cons hxy _ ih => exact .cons hxy ih

theorem flatMap_skippedAt_eq {xs ys : List Node} (h : List.Forall₂ Indistinct xs ys) (p : Place) :
    xs.flatMap (skippedAt p) = ys.flatMap (skippedAt p) := by
  induction h with
  | nil => rfl
  | cons hxy _ ih => rw [List.flatMap_cons, List.flatMap_cons, hxy.skippedAt_eq, ih]

theorem skippedAt_eq_of_forall₂ {x y : Node} (hkind : y.kind? = x.kind?)
    (hname : x.typeName = y.typeName) (h : List.Forall₂ Indistinct x.content y.content)
    (p : Place) : skippedAt p x = skippedAt p y := by
  cases hopens : p.opens? x.kind? with
  | some q =>
    rw [skippedAt_of_opens? hopens, skippedAt_of_opens? (hkind ▸ hopens)]
    exact flatMap_skippedAt_eq h q
  | none =>
    cases hdrops : p.drops x.kind? with
    | true => rw [skippedAt_of_drops hdrops, skippedAt_of_drops (hkind ▸ hdrops), hname]
    | false =>
      rw [skippedAt_of_leaf hdrops hopens, skippedAt_of_leaf (hkind ▸ hdrops) (hkind ▸ hopens)]

theorem Indistinct.branch {kind : NodeKind} {xs ys : List Node}
    (h : List.Forall₂ Indistinct xs ys) (attrs : Fields) :
    Indistinct (branch kind xs attrs) (branch kind ys attrs) :=
  ⟨.branch (.of_forall₂ (h.imp fun _ _ hxy => hxy.toAlike) _) attrs,
    skippedAt_eq_of_forall₂ rfl rfl h⟩

theorem Indistinct.run {text : String} {marks marks' : List Mark}
    (h : applyMarks text marks = applyMarks text marks') :
    Indistinct (run text marks) (run text marks') :=
  ⟨⟨rfl, rfl, h, rfl⟩, fun p => by cases p <;> rfl⟩

theorem Indistinct.assemble {fields : Fields} {xs ys : List Node}
    (h : List.Forall₂ Indistinct xs ys) : Indistinct (assemble fields xs) (assemble fields ys) := by
  rw [Node.assemble, Node.assemble]
  split
  · exact .refl _
  · exact .refl _
  · exact .refl _
  · exact .branch h _

theorem Indistinct.trans {x y z : Node} (h : Indistinct x y) (h' : Indistinct y z) :
    Indistinct x z :=
  ⟨⟨h.isItem_eq.trans h'.isItem_eq, h.renderBlock_eq.trans h'.renderBlock_eq,
    h.inlineText_eq.trans h'.inlineText_eq, h.literalText_eq.trans h'.literalText_eq⟩,
    fun p => (h.skippedAt_eq p).trans (h'.skippedAt_eq p)⟩

theorem assemble_eq (fields : Fields) (content : List Node) : assemble fields content =
    match fields.kind? with
    | none => foreign fields.typeName
    | some .text =>
      .run (((Fields.get? "text" fields).bind Json.text?).getD "")
        (Mark.listOfJson (Fields.get? "marks" fields))
    | some .hardBreak => hardBreak
    | some kind => .branch kind content (attributesFor kind (fields.value "attrs")) :=
  rfl

theorem listOfJson_eq (v : Option Json) :
    Mark.listOfJson v = (v.getD .null).items.filterMap Mark.ofJson? := by
  rcases v with _ | v
  · rfl
  · cases v <;> rfl

theorem attributesFor_congr {kind : NodeKind} {v w : Json}
    (h : ∀ key ∈ kind.usedAttrs, v.get? key = w.get? key) :
    attributesFor kind v = attributesFor kind w := by
  cases kind with
  | heading | codeBlock | orderedList => rw [attributesFor, attributesFor, h _ (.head _)]
  | _ => rfl

theorem assemble_eq_of_usedKeys {fields fields' : Fields}
    (h : ∀ key ∈ Fields.usedKeys fields.kind?, Fields.get? key fields' = Fields.get? key fields)
    (content : List Node) : assemble fields' content = assemble fields content := by
  have htype : Fields.get? "type" fields' = Fields.get? "type" fields := by
    refine h _ ?_
    cases fields.kind? with
    | none => exact .head _
    | some kind => cases kind <;> exact .head _
  have hname : fields'.typeName = fields.typeName := by rw [Fields.typeName, htype, Fields.typeName]
  have hkind : fields'.kind? = fields.kind? := by rw [Fields.kind?, hname, Fields.kind?]
  rw [assemble_eq, assemble_eq, hkind, hname]
  cases hfields : fields.kind? with
  | none => rfl
  | some kind =>
    rw [hfields] at h
    cases kind with
    | text => rw [h "text" (by decide), h "marks" (by decide)]
    | heading | codeBlock | orderedList => rw [Fields.value, h "attrs" (by decide), Fields.value]
    | _ => rfl

theorem assemble_eq_of_not_mem {fields : Fields}
    (h : "content" ∉ Fields.usedKeys fields.kind?) (xs ys : List Node) :
    assemble fields xs = assemble fields ys := by
  rw [assemble_eq, assemble_eq]
  cases hfields : fields.kind? with
  | none => rfl
  | some kind =>
    rw [hfields] at h
    cases kind with
    | text | hardBreak => rfl
    | _ => exact absurd (by decide) h

theorem assemble_put_attrs {fields : Fields} {kind : NodeKind} {v : Json}
    (hkind : fields.kind? = some kind)
    (h : ∀ key ∈ kind.usedAttrs, v.get? key = (fields.value "attrs").get? key)
    (content : List Node) :
    assemble (Fields.put "attrs" v fields) content = assemble fields content := by
  have hattrs : attributesFor kind ((Fields.put "attrs" v fields).value "attrs") =
      attributesFor kind (fields.value "attrs") := by
    rw [Fields.value_put_self]
    exact attributesFor_congr h
  rw [assemble_eq, assemble_eq, Fields.kind?_put (by decide), hkind]
  cases kind with
  | text => rw [Fields.get?_put_of_ne (by decide), Fields.get?_put_of_ne (by decide)]
  | hardBreak => rfl
  | _ => exact congrArg (Node.branch _ content) hattrs

theorem assemble_put_marks {fields : Fields} (hkind : fields.kind? = some .text)
    (marks : List Json) (content : List Node) :
    assemble (Fields.put "marks" (.array marks) fields) content =
      .run (((Fields.get? "text" fields).bind Json.text?).getD "")
        (marks.filterMap Mark.ofJson?) := by
  rw [assemble_eq, Fields.kind?_put (by decide), hkind]
  rw [Fields.get?_put_of_ne (by decide), Fields.get?_put_self]
  rfl

theorem assemble_of_text {fields : Fields} (hkind : fields.kind? = some .text)
    (content : List Node) : assemble fields content =
      .run (((Fields.get? "text" fields).bind Json.text?).getD "")
        ((fields.value "marks").items.filterMap Mark.ofJson?) := by
  rw [assemble_eq, hkind]
  exact congrArg (Node.run _) (listOfJson_eq _)

/-- The node of an edited object is that of the first one, but for the content. -/
theorem indistinct_assemble_of_edit {fields fields' : Fields}
    (h : Fields.Edit fields.kind? fields fields') (content : List Node) :
    Indistinct (Node.assemble fields content) (Node.assemble fields' content) := by
  generalize hkind : fields.kind? = kind? at h
  have hcontent (items : List Json) : Indistinct (Node.assemble fields content)
      (Node.assemble (fields.withContent items) content) := by
    rw [assemble_congr (fun _ hkey => Fields.get?_withContent hkey items fields)]
    exact .refl _
  cases h with
  | keys h =>
    subst hkind
    rw [assemble_eq_of_usedKeys h]
    exact .refl _
  | attrs h =>
    rw [assemble_put_attrs hkind h]
    exact .refl _
  | @marks _ marks hmem hsame =>
    rw [assemble_of_text hkind, assemble_put_marks hkind]
    refine .run (applyMarks_eq_of_mem_iff (fun m => ?_) ?_ _).symm
    · simp only [List.mem_filterMap, hmem]
    · intro m hm m' hm' s s' hs hs'
      obtain ⟨v, hv, hm⟩ := List.mem_filterMap.mp hm
      obtain ⟨v', hv', hm'⟩ := List.mem_filterMap.mp hm'
      exact hsame v hv v' hv' s s' (linkHref?_of_ofJson? hm hs) (linkHref?_of_ofJson? hm' hs')
  | stray hitems hstray =>
    rw [assemble_of_text hkind, assemble_put_marks hkind, hitems, List.filterMap_append,
      List.filterMap_append, List.filterMap_cons_none (Mark.ofJson?_of_strayMark hstray)]
    exact .refl _
  | entry | inside => exact hcontent _

theorem contentOfFields_congr {fields fields' : Fields}
    (h : Fields.get? "content" fields' = Fields.get? "content" fields) :
    contentOfFields fields' = contentOfFields fields := by
  rw [contentOfFields_eq, contentOfFields_eq, h]

theorem forall₂_indistinct_refl (xs : List Node) : List.Forall₂ Indistinct xs xs :=
  List.forall₂_same.mpr fun x _ => .refl x

theorem indistinct_ofFields {fields fields' : Fields}
    (h : Fields.Edit fields.kind? fields fields')
    (hcontent : "content" ∈ Fields.usedKeys fields.kind? →
      List.Forall₂ Indistinct (contentOfFields fields) (contentOfFields fields')) :
    Indistinct (ofFields fields) (ofFields fields') := by
  refine .trans ?_ (indistinct_assemble_of_edit h _)
  by_cases hused : "content" ∈ Fields.usedKeys fields.kind?
  · exact .assemble (hcontent hused)
  · rw [ofFields, assemble_eq_of_not_mem hused _ (contentOfFields fields')]
    exact .refl _

theorem ofItems_cons_of_object?_eq_none {v : Json} (h : v.object? = none) (rest : List Json) :
    ofItems (v :: rest) = ofItems rest := by
  rw [ofItems_eq_map, ofItems_eq_map, List.filterMap_cons_none h]

theorem forall₂_ofItems_replace {child child' : Fields}
    (h : Indistinct (ofFields child) (ofFields child')) (before after : List Json) :
    List.Forall₂ Indistinct (ofItems (before ++ .object child :: after))
      (ofItems (before ++ .object child' :: after)) := by
  rw [ofItems_append, ofItems_append, ofItems_object, ofItems_object]
  exact List.rel_append (forall₂_indistinct_refl _) (.cons h (forall₂_indistinct_refl _))

theorem forall₂_contentOfFields {kind? : Option NodeKind} {fields fields' : Fields}
    (h : Fields.Edit kind? fields fields') : "content" ∈ Fields.usedKeys kind? →
      List.Forall₂ Indistinct (contentOfFields fields) (contentOfFields fields') := by
  induction h with
  | keys h =>
    intro hused
    rw [contentOfFields_congr (h "content" hused)]
    exact forall₂_indistinct_refl _
  | attrs | marks | stray =>
    intro _
    rw [contentOfFields_congr (Fields.get?_put_of_ne (by decide) _ _)]
    exact forall₂_indistinct_refl _
  | entry hitems hvalue =>
    intro _
    rw [contentOfFields_withContent, contentOfFields_eq_ofItems, hitems, ofItems_append,
      ofItems_append, ofItems_cons_of_object?_eq_none hvalue]
    exact forall₂_indistinct_refl _
  | inside hitems hedit ih =>
    intro _
    rw [contentOfFields_withContent, contentOfFields_eq_ofItems, hitems]
    exact forall₂_ofItems_replace (indistinct_ofFields hedit ih) _ _

end Node

namespace Rendering

theorem ofBlocks_eq_of_forall₂ {xs ys : List Node} (h : List.Forall₂ Node.Indistinct xs ys) :
    ofBlocks xs = ofBlocks ys := by
  have hshown : Node.shownBlocks xs = Node.shownBlocks ys :=
    Node.AlikeAll.of_forall₂ (h.imp fun _ _ hxy => hxy.toAlike) true
  have hskipped : Node.skippedInBlocks xs = Node.skippedInBlocks ys := by
    rw [Node.skippedInBlocks_eq_flatMap, Node.skippedInBlocks_eq_flatMap]
    exact Node.flatMap_skippedAt_eq h .block
  rw [ofBlocks_eq, ofBlocks_eq, hshown, hskipped]

/-- Any number of edits at any depth, of a document or of the objects in it, leave what it renders
to as it is, with the warnings. -/
theorem ofJson_eq_of_edits {root root' : Fields}
    (h : Relation.ReflTransGen (Fields.Edit (some .doc)) root root') :
    ofJson (.object root') = ofJson (.object root) := by
  induction h with
  | refl => rfl
  | tail _ hedit ih =>
    refine (ofBlocks_eq_of_forall₂ ?_).symm.trans ih
    exact Node.forall₂_contentOfFields hedit (by decide)

/-- The marks of a run in a heading are turned round and repeated, a link without a destination is
added, the line break gets content, the heading an attribute and its content a number. -/
theorem ofJson_eq_of_edits_nested :
    let object (name : String) (fields : Fields) : Fields := ("type", .text name) :: fields
    let link (href : String) : Json :=
      .object (object "link" [("attrs", .object [("href", .text href)])])
    let strong : Json := .object (object "strong" [])
    let run (marks : List Json) : Fields :=
      object "text" [("text", .text "a"), ("marks", .array marks)]
    let broken (fields : Fields) : Fields := object "hardBreak" fields
    let heading (attrs : Fields) (content : List Json) : Fields :=
      object "heading" [("attrs", .object attrs), ("content", .array content)]
    let document (child : Fields) : Fields := object "doc" [("content", .array [.object child])]
    let before := document (heading [("level", .int 2)]
      [.object (run [strong, link "u"]), .object (broken [])])
    let after := document (heading [("id", .null), ("level", .int 2)]
      [.int 5, .object (run [link "u", strong, link "", link "u"]),
        .object (broken [("content", .array [strong])])])
    Relation.ReflTransGen (Fields.Edit (some .doc)) before after ∧
      ofJson (.object before) = .ok ⟨"## [**a**](u)\n", []⟩ ∧
      ofJson (.object after) = ofJson (.object before) := by
  intro object link strong run broken heading document before after
  have hheading {attrs attrs' : Fields} {content content' : List Json}
      (h : Fields.Edit (some .heading) (heading attrs content) (heading attrs' content')) :
      Fields.Edit (some .doc) (document (heading attrs content))
        (document (heading attrs' content')) :=
    @Fields.Edit.inside _ _ _ _ [] [] rfl h
  have hrun {marks marks' : List Json} (h : Fields.Edit (some .text) (run marks) (run marks')) :
      Fields.Edit (some .heading)
        (heading [("level", .int 2)] [.object (run marks), .object (broken [])])
        (heading [("level", .int 2)] [.object (run marks'), .object (broken [])]) :=
    @Fields.Edit.inside _ _ _ _ [] _ rfl h
  have hmarks : Fields.Edit (some .text) (run [strong, link "u"])
      (run [link "u", strong, link "u"]) := by
    have hhref (m : Json) (hm : m ∈ [link "u", strong, link "u"]) (s : String)
        (hs : m.linkHref? = some s) : s = "u" := by
      simp only [List.mem_cons, List.not_mem_nil, or_false] at hm
      rcases hm with rfl | rfl | rfl
      · exact (Option.some.inj hs).symm
      · cases hs
      · exact (Option.some.inj hs).symm
    refine @Fields.Edit.marks _ [link "u", strong, link "u"] (fun m => ?_)
      fun m hm m' hm' s s' hs hs' => (hhref m hm s hs).trans (hhref m' hm' s' hs').symm
    change m ∈ [link "u", strong, link "u"] ↔ m ∈ [strong, link "u"]
    simp only [List.mem_cons, List.not_mem_nil, or_false]
    tauto
  have hstray : Fields.Edit (some .text) (run [link "u", strong, link "u"])
      (run [link "u", strong, link "", link "u"]) := by
    refine @Fields.Edit.stray _ [link "u", strong] [link "u"] (link "") rfl ?_
    rintro name ⟨⟩
    exact ⟨by decide, fun _ => rfl⟩
  have hbroken : Fields.Edit (some .hardBreak) (broken [])
      (broken [("content", .array [strong])]) := by
    refine .keys fun key hkey => ?_
    obtain rfl := List.mem_singleton.mp hkey
    rfl
  have hattrs (content : List Json) :
      Fields.Edit (some .heading) (heading [("level", .int 2)] content)
        (heading [("id", .null), ("level", .int 2)] content) := by
    refine @Fields.Edit.attrs .heading _ (.object [("id", .null), ("level", .int 2)])
      fun key hkey => ?_
    obtain rfl := List.mem_singleton.mp hkey
    rfl
  have hedits : Relation.ReflTransGen (Fields.Edit (some .doc)) before after :=
    .head (hheading (hrun hmarks)) <| .head (hheading (hrun hstray)) <|
    .head (hheading (@Fields.Edit.inside _ _ _ _ [.object (run _)] [] rfl hbroken)) <|
    .head (hheading (hattrs _)) <|
    .single (hheading (@Fields.Edit.entry _ _ [] [_, _] (.int 5) rfl rfl))
  exact ⟨hedits, rfl, ofJson_eq_of_edits hedits⟩

end Rendering

end AdfMarkdown
