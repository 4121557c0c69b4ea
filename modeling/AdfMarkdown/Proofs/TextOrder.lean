import AdfMarkdown.Proofs.Composing
import AdfMarkdown.Proofs.ItemLines
import AdfMarkdown.Proofs.StyledText

/-! # Text is kept in order

The text that rendering comes to in a document stands in the Markdown in the order of the document,
with only signs, numbers and separators between its characters. The text of a document made from
tokens is the text of the tokens that it is made from, character by character.
-/

namespace AdfMarkdown

theorem Text.sublist_join {ss ts : List String} (sep : String)
    (h : List.Forall₂ (fun s t => s.toList.Sublist t.toList) ss ts) :
    (join sep ss).toList.Sublist (join sep ts).toList := by
  induction h with
  | nil => exact List.nil_sublist _
  | @cons s t ss ts hst hrest ih =>
    cases hrest with
    | nil => exact hst
    | cons _ _ =>
      rw [join_cons_cons, join_cons_cons]
      simpa only [String.toList_append] using (hst.append (.refl _)).append ih

/-- The texts one after the other stand in the other text, with characters between them at most. -/
def KeptIn (texts : List String) (s : String) : Prop :=
  (texts.flatMap String.toList).Sublist s.toList

namespace KeptIn

variable {ts us : List String} {s t : String}

theorem nil (s : String) : KeptIn [] s := List.nil_sublist _

theorem singleton (s : String) : KeptIn [s] s := by
  rw [KeptIn, List.flatMap_singleton]

theorem mono (h : KeptIn ts s) (hst : s.toList.Sublist t.toList) : KeptIn ts t := h.trans hst

theorem append (hs : KeptIn ts s) (ht : KeptIn us t) : KeptIn (ts ++ us) (s ++ t) := by
  rw [KeptIn, List.flatMap_append, String.toList_append]
  exact List.Sublist.append hs ht

theorem within (h : KeptIn ts s) (before after : String) : KeptIn ts (before ++ s ++ after) := by
  simpa using ((nil before).append h).append (nil after)

theorem after (h : KeptIn ts s) (before : String) : KeptIn ts (before ++ s) :=
  (nil before).append h

theorem join {α : Type} {texts : α → List String} {as : List α} {parts : List String} (sep : String)
    (h : List.Forall₂ (fun a s => KeptIn (texts a) s) as parts) :
    KeptIn (as.flatMap texts) (Text.join sep parts) := by
  induction h with
  | nil => exact nil _
  | @cons a s as parts hs hrest ih =>
    rw [List.flatMap_cons]
    cases parts with
    | nil =>
      obtain rfl := List.forall₂_nil_right_iff.mp hrest
      simpa using hs
    | cons t parts =>
      rw [Text.join_cons_cons, String.append_assoc]
      exact hs.append (ih.after sep)

theorem glue (sep : String) (hs : KeptIn ts s) (ht : KeptIn us t) :
    KeptIn (ts ++ us) (Text.glue sep s t) := by
  have hnone {ts : List String} {s : String} (h : KeptIn ts s) (hempty : s = "") :
      ts.flatMap String.toList = [] := by
    subst hempty
    exact List.sublist_nil.mp h
  rw [Text.glue]
  split
  · next hempty =>
    rw [KeptIn, List.flatMap_append, hnone hs hempty]
    exact ht
  split
  · next hempty =>
    rw [KeptIn, List.flatMap_append, hnone ht hempty, List.append_nil]
    exact hs
  · rw [String.append_assoc]
    exact hs.append (ht.after sep)

theorem joinNonempty {α : Type} {texts : α → List String} {as : List α} {parts : List String}
    (sep : String) (h : List.Forall₂ (fun a s => KeptIn (texts a) s) as parts) :
    KeptIn (as.flatMap texts) (Text.joinNonempty sep parts) := by
  induction h with
  | nil => exact nil _
  | @cons a s as parts hs _ ih =>
    have hone : Text.joinNonempty sep [s] = s := by
      by_cases hempty : s = "" <;> simp [Text.joinNonempty, hempty]
    have hfront := Text.joinNonempty_append sep [s] parts
    rw [hone, List.singleton_append] at hfront
    rw [List.flatMap_cons, hfront]
    exact hs.glue sep ih

theorem quote (h : KeptIn ts s) : KeptIn ts (quote s) := by
  have hline (l : String) : l.toList.Sublist (quoteLine l).toList := by
    rw [quoteLine]
    split
    · next hempty => rw [hempty]; exact List.nil_sublist _
    · rw [String.toList_append]
      exact List.sublist_append_right _ _
  rw [AdfMarkdown.quote]
  split
  · next hempty => rwa [hempty] at h
  · refine h.mono ?_
    have hlines : List.Forall₂ (fun l q => l.toList.Sublist q.toList) (Text.lines s)
        ((Text.lines s).map quoteLine) :=
      List.forall₂_map_right_iff.mpr (List.forall₂_same.mpr fun l _ => hline l)
    simpa only [Text.join_lines] using Text.sublist_join "\n" hlines

end KeptIn

theorem keptIn_emphasized (text : String) (marks : List Mark) :
    KeptIn [text] (emphasized text marks) := by
  rw [emphasized]
  split_ifs
  · exact (KeptIn.singleton text).within _ _
  · exact (KeptIn.singleton text).within _ _
  · exact (KeptIn.singleton text).within _ _
  · exact (KeptIn.singleton text).within _ _
  · exact .singleton text

theorem keptIn_applyMarks (text : String) (marks : List Mark) :
    KeptIn [text] (applyMarks text marks) := by
  have hemphasized := keptIn_emphasized text marks
  rw [applyMarks]
  split
  · next href _ =>
    rw [String.append_assoc, String.append_assoc]
    simpa only [String.append_assoc] using hemphasized.within "[" ("](" ++ (href ++ ")"))
  · exact hemphasized

namespace Node

mutual

/-- The texts of the text nodes that rendering comes to from the node at the place, in order. -/
def shownTexts (p : Place) : Node → List String
  | foreign _ => []
  | known kind content _ text _ => match p.opens? (some kind) with
    | some q => shownTextsOf q content
    | none => if kind = .text ∧ p.takes .text then [text.getD ""] else []

def shownTextsOf (p : Place) : List Node → List String
  | [] => []
  | x :: xs => shownTexts p x ++ shownTextsOf p xs

end

theorem shownTextsOf_eq_flatMap (p : Place) (xs : List Node) :
    shownTextsOf p xs = xs.flatMap (shownTexts p) := by
  induction xs with
  | nil => simp [shownTextsOf]
  | cons x xs ih => simp [shownTextsOf, ih]

theorem shownTexts_of_opens? {p q : Place} {x : Node} (h : p.opens? x.kind? = some q) :
    shownTexts p x = x.content.flatMap (shownTexts q) := by
  cases x with
  | foreign name => cases h
  | known kind content attrs text marks =>
    rw [kind?] at h
    rw [shownTexts, h]
    exact shownTextsOf_eq_flatMap q content

theorem shownTexts_of_opens?_eq_none {p : Place} {x : Node} (h : p.opens? x.kind? = none) :
    shownTexts p x = if x.kind? = some .text ∧ p.takes .text then [x.literalText] else [] := by
  cases x with
  | foreign name => simp [shownTexts, kind?]
  | known kind content attrs text marks =>
    rw [kind?] at h
    rw [shownTexts, h, kind?]
    cases kind <;> simp [literalText]

theorem keptIn_renderInline (xs : List Node) :
    KeptIn (xs.flatMap (shownTexts .line)) (renderInline xs) := by
  have hnode (x : Node) : KeptIn (shownTexts .line x) x.inlineText := by
    cases x with
    | foreign name => exact .nil _
    | known kind content attrs text marks =>
      cases kind with
      | text => exact keptIn_applyMarks _ marks
      | _ => exact .nil _
  exact .join "" (List.forall₂_map_right_iff.mpr (List.forall₂_same.mpr fun x _ => hnode x))

theorem keptIn_plainText (xs : List Node) :
    KeptIn (xs.flatMap (shownTexts .code)) (plainText xs) := by
  have hnode (x : Node) : KeptIn (shownTexts .code x) x.literalText := by
    cases x with
    | foreign name => exact .nil _
    | known kind content attrs text marks =>
      cases kind with
      | text => exact .singleton _
      | _ => exact .nil _
  exact .join "" (List.forall₂_map_right_iff.mpr (List.forall₂_same.mpr fun x _ => hnode x))

theorem flatMap_shownTexts_list (xs : List Node) :
    xs.flatMap (shownTexts .list) = (xs.filter isItem).flatMap (shownTexts .block) := by
  induction xs with
  | nil => rfl
  | cons x xs ih =>
    rw [List.flatMap_cons, ih]
    cases x with
    | foreign name => rfl
    | known kind content attrs text marks => cases kind <;> rfl

theorem keptIn_marked {ts : List String} (x : Node) {texts : List String}
    (h : KeptIn ts (Text.join "\n" texts)) : KeptIn ts (Text.join "\n" (x.marked texts)) := by
  refine h.mono (Text.sublist_join "\n" (List.forall₂_iff_get.mpr ⟨?_, fun i hi hi' => ?_⟩))
  · rw [marked, List.length_mapIdx]
  · simp only [List.get_eq_getElem, marked, List.getElem_mapIdx, String.toList_append]
    exact List.sublist_append_right _ _

theorem forall₂_keptIn_of_renderBlocks {xs : List Node}
    (hxs : ∀ x ∈ xs, ∀ s, renderBlock x = .ok s → KeptIn (shownTexts .block x) s)
    {parts : List String} (h : renderBlocks xs = .ok parts) :
    List.Forall₂ (fun x s => KeptIn (shownTexts .block x) s) xs parts := by
  induction renderBlocks_eq_ok_iff.mp h with
  | nil => exact .nil
  | cons hs hrest ih =>
    rw [List.forall_mem_cons] at hxs
    exact .cons (hxs.1 _ hs) (ih hxs.2 (renderBlocks_eq_ok_iff.mpr hrest))

/-- Rendering a block keeps its texts in order. -/
theorem keptIn_renderBlock (x : Node) :
    ∀ s, renderBlock x = .ok s → KeptIn (shownTexts .block x) s := by
  induction x using Node.induct with
  | step x ih =>
    intro s hs
    cases x with
    | foreign name => exact .nil s
    | known kind content attrs text marks =>
      have htexts {q : Place} (h : Place.opens? .block (some kind) = some q) :
          shownTexts .block (known kind content attrs text marks) =
            content.flatMap (shownTexts q) := shownTexts_of_opens? h
      have hlist (hkind : some kind = some .bulletList ∨ some kind = some .orderedList) :
          KeptIn (content.flatMap (shownTexts .list)) s := by
        obtain ⟨texts, hitems, rfl⟩ :=
          exists_of_renderBlock_list (x := known kind content attrs text marks) hkind hs
        rw [flatMap_shownTexts_list]
        refine keptIn_marked _ (.join "\n" (forall₂_keptIn_of_renderBlocks ?_ hitems))
        exact fun y hy => ih y (List.mem_filter.mp hy).1
      cases kind with
      | paragraph =>
        obtain rfl := Except.ok.inj hs
        exact htexts rfl ▸ keptIn_renderInline content
      | heading =>
        obtain ⟨level, -, hs⟩ := exists_of_bind_eq_ok hs
        obtain rfl := Except.ok.inj hs
        exact htexts rfl ▸ (keptIn_renderInline content).after _
      | codeBlock =>
        obtain rfl := Except.ok.inj hs
        rw [htexts rfl]
        exact (keptIn_plainText content).within _ _
      | bulletList => exact htexts rfl ▸ hlist (.inl rfl)
      | orderedList => exact htexts rfl ▸ hlist (.inr rfl)
      | listItem =>
        rw [renderBlock] at hs
        obtain ⟨parts, hparts, hs⟩ := exists_of_bind_eq_ok hs
        obtain rfl := Except.ok.inj hs
        exact htexts rfl ▸ .joinNonempty " " (forall₂_keptIn_of_renderBlocks ih hparts)
      | blockquote =>
        rw [renderBlock] at hs
        obtain ⟨parts, hparts, hs⟩ := exists_of_bind_eq_ok hs
        obtain rfl := Except.ok.inj hs
        exact htexts rfl ▸
          (KeptIn.joinNonempty "\n\n" (forall₂_keptIn_of_renderBlocks ih hparts)).quote
      | hardBreak | doc | text => exact .nil s

end Node

namespace Fields

def ownText (fields : Fields) : String := ((get? "text" fields).bind Json.text?).getD ""

mutual

/-- The text objects that rendering comes to in a content at the place, in the order of the
document. -/
def textObjects (p : Place) : List (String × Json) → List Fields
  | [] => []
  | (k, v) :: rest => if k = "content" then textObjectsIn p v else textObjects p rest

def textObjectsIn (p : Place) : Json → List Fields
  | .array items => textObjectsOf p items
  | _ => []

def textObjectsOf (p : Place) : List Json → List Fields
  | [] => []
  | .object fields :: rest =>
    (match p.opens? (kind? fields) with
      | some q => textObjects q fields
      | none => if kind? fields = some .text ∧ p.takes .text then [fields] else []) ++
        textObjectsOf p rest
  | _ :: rest => textObjectsOf p rest

end

def textObjectsAt (p : Place) (fields : Fields) : List Fields :=
  match p.opens? (kind? fields) with
  | some q => textObjects q fields
  | none => if kind? fields = some .text ∧ p.takes .text then [fields] else []

theorem textObjectsOf_eq_flatMap (p : Place) (items : List Json) :
    textObjectsOf p items = (items.filterMap Json.object?).flatMap (textObjectsAt p) := by
  induction items with
  | nil => simp [textObjectsOf]
  | cons v rest ih =>
    cases v <;> simp [textObjectsOf, textObjectsAt, List.filterMap_cons, Json.object?, ih]

theorem textObjects_eq_flatMap (p : Place) (fields : Fields) :
    textObjects p fields = (contents fields).flatMap (textObjectsAt p) := by
  induction fields with
  | nil => simp [textObjects, contents]
  | cons f rest ih =>
    obtain ⟨k, v⟩ := f
    by_cases hk : k = "content"
    · have hget : get? "content" ((k, v) :: rest) = some v := by rw [get?, if_pos hk]
      rw [textObjects, if_pos hk, contents, hget]
      cases v with
      | array items => rw [textObjectsIn, textObjectsOf_eq_flatMap]
      | _ => simp [textObjectsIn]
    · have hget : get? "content" ((k, v) :: rest) = get? "content" rest := by rw [get?, if_neg hk]
      rw [textObjects, if_neg hk, ih, contents, contents, hget]

theorem textObjectsAt_of_opens? {p q : Place} {fields : Fields}
    (h : p.opens? (kind? fields) = some q) :
    textObjectsAt p fields = (contents fields).flatMap (textObjectsAt q) := by
  rw [textObjectsAt, h]
  exact textObjects_eq_flatMap q fields

theorem textObjectsAt_of_opens?_eq_none {p : Place} {fields : Fields}
    (h : p.opens? (kind? fields) = none) : textObjectsAt p fields =
      if kind? fields = some .text ∧ p.takes .text then [fields] else [] := by
  rw [textObjectsAt, h]

/-- What holds of an object at a place, once it holds of those in its content where rendering goes
on to them, holds of every object at every place. -/
theorem induct_places {motive : Place → Fields → Prop}
    (step : ∀ p fields, (∀ q, p.opens? (kind? fields) = some q →
      ∀ f ∈ contents fields, motive q f) → motive p fields) (p : Place) (fields : Fields) :
    motive p fields := by
  -- The induction is on the node that the object is read as.
  generalize hx : Node.ofFields fields = x
  induction x using Node.induct generalizing p fields with
  | step x ih =>
    subst hx
    refine step p fields fun q hq f hf => ih (Node.ofFields f) ?_ q f rfl
    rw [Node.content_ofFields hq]
    exact List.mem_map_of_mem hf

theorem literalText_ofFields {fields : Fields} (h : kind? fields = some .text) :
    (Node.ofFields fields).literalText = ownText fields := by
  rw [kind?, typeName] at h
  rw [Node.ofFields, Node.assemble, h]
  rfl

theorem shownTexts_ofFields (p : Place) (fields : Fields) :
    Node.shownTexts p (Node.ofFields fields) = (textObjectsAt p fields).map ownText := by
  induction p, fields using induct_places with
  | step p fields ih =>
    have hkind := Node.kind?_ofFields fields
    cases hopens : p.opens? (kind? fields) with
    | some q =>
      rw [Node.shownTexts_of_opens? (hkind.symm ▸ hopens), Node.content_ofFields hopens,
        textObjectsAt_of_opens? hopens, List.flatMap_map, List.map_flatMap]
      exact List.flatMap_congr fun f hf => ih q hopens f hf
    | none =>
      rw [Node.shownTexts_of_opens?_eq_none (hkind.symm ▸ hopens), hkind,
        textObjectsAt_of_opens?_eq_none hopens]
      split
      · next htext => rw [literalText_ofFields htext.1, List.map_singleton]
      · rfl

/-- The text objects that are shown are the text objects that stand where text is taken. -/
theorem mem_textObjectsAt_iff {f : Fields} (p : Place) (fields : Fields) :
    f ∈ textObjectsAt p fields ↔ ∃ q, Place.Reaches kind? contents p fields q f ∧
      kind? f = some .text ∧ q.takes .text = true := by
  induction p, fields using induct_places with
  | step p fields ih =>
    cases hopens : p.opens? (kind? fields) with
    | some q =>
      rw [textObjectsAt_of_opens? hopens, List.mem_flatMap]
      constructor
      · rintro ⟨g, hg, hf⟩
        obtain ⟨r, hreach, htext⟩ := (ih q hopens g hg).mp hf
        exact ⟨r, .child hopens hg hreach, htext⟩
      · rintro ⟨r, hreach, htext⟩
        rcases Place.reaches_iff.mp hreach with ⟨rfl, rfl⟩ | ⟨q', hq', g, hg, hreach⟩
        · -- Rendering does not go on from a text object.
          rw [htext.1] at hopens
          cases r <;> cases hopens
        · obtain rfl : q = q' := Option.some.inj (hopens ▸ hq')
          exact ⟨g, hg, (ih q hopens g hg).mpr ⟨r, hreach, htext⟩⟩
    | none =>
      have hself (r : Place) : Place.Reaches kind? contents p fields r f ↔ r = p ∧ f = fields := by
        rw [Place.reaches_iff, hopens]
        simp
      rw [textObjectsAt_of_opens?_eq_none hopens]
      simp only [hself]
      split
      · next htext =>
        rw [List.mem_singleton]
        exact ⟨fun h => ⟨p, ⟨rfl, h⟩, h ▸ htext⟩, fun ⟨_, h, _⟩ => h.2⟩
      · next htext =>
        refine ⟨fun h => (List.not_mem_nil h).elim, ?_⟩
        rintro ⟨_, ⟨rfl, rfl⟩, h⟩
        exact absurd h htext

end Fields

namespace Node

mutual

/-- The texts of the node and of all nodes below it, one after the other. -/
def allText : Node → List Char
  | foreign _ => []
  | known _ content _ text _ => (text.getD "").toList ++ allTextOf content

def allTextOf : List Node → List Char
  | [] => []
  | x :: xs => allText x ++ allTextOf xs

end

theorem allTextOf_eq_flatMap (xs : List Node) : allTextOf xs = xs.flatMap allText := by
  induction xs with
  | nil => simp [allTextOf]
  | cons x xs ih => simp [allTextOf, ih]

theorem allText_run (s : String) (marks : List Mark) : allText (run s marks) = s.toList := by
  simp [run, allText, allTextOf]

theorem allText_branch (kind : NodeKind) (content : List Node) (attrs : Fields) :
    allText (branch kind content attrs) = content.flatMap allText := by
  simp [branch, allText, allTextOf_eq_flatMap]

end Node

def Glyph.char? : Glyph → Option Char
  | char c _ => some c
  | lineBreak => none

theorem Glyph.filterMap_char?_spell (s : String) (marks : List Mark) :
    (spell s marks).filterMap char? = s.toList := by
  simp [spell, List.filterMap_map, Function.comp_def, char?]

theorem Node.flatMap_allText {xs : List Node} (h : ∀ x ∈ xs, x.IsPiece) :
    xs.flatMap allText = (glyphsOf xs).filterMap Glyph.char? := by
  rw [glyphsOf, List.filterMap_flatMap]
  refine List.flatMap_congr fun x hx => ?_
  rcases h x hx with rfl | ⟨s, marks, -, rfl⟩
  · rfl
  · rw [allText_run]
    exact (Glyph.filterMap_char?_spell s marks).symm

namespace Token

mutual

/-- The text of a token in a line: its raw text, or a line feed for a soft break. A token of a type
that is not known here gives what its children give. -/
def lineText : Token → List Char
  | mk name raw _ _ children =>
    match name with
    | "text" | "codespan" => (raw.getD "").toList
    | "softbreak" => ['\n']
    | "linebreak" => []
    | _ => childLineText children

def childLineText : Option (List Token) → List Char
  | none => []
  | some ts => lineTextOf ts

def lineTextOf : List Token → List Char
  | [] => []
  | t :: ts => lineText t ++ lineTextOf ts

end

mutual

/-- The text of a block token, if it is of a supported type. -/
def blockText : Token → List Char
  | mk name raw _ _ children =>
    match name with
    | "paragraph" | "heading" => childLineText children
    | "block_code" => (raw.getD "").toList
    | "list" => childItemText children
    | "block_quote" => childBlockText children
    | _ => []

def childBlockText : Option (List Token) → List Char
  | none => []
  | some ts => blockTextOf ts

def childItemText : Option (List Token) → List Char
  | none => []
  | some ts => itemTextOf ts

def blockTextOf : List Token → List Char
  | [] => []
  | t :: ts => blockText t ++ blockTextOf ts

def itemTextOf : List Token → List Char
  | [] => []
  | mk name _ _ _ children :: ts =>
    (if name = "list_item" then childBlockText children else []) ++ itemTextOf ts

end

mutual

theorem filterMap_char?_glyphs (marks : List Mark) : ∀ t : Token,
    (glyphs marks t).filterMap Glyph.char? = lineText t
  | mk name raw style attrs children => by
    unfold glyphs lineText
    split
    · exact Glyph.filterMap_char?_spell _ _
    · exact Glyph.filterMap_char?_spell _ _
    · rfl
    · rfl
    all_goals simp_all [filterMap_char?_childGlyphs]

theorem filterMap_char?_childGlyphs (marks : List Mark) : ∀ children : Option (List Token),
    (childGlyphs marks children).filterMap Glyph.char? = childLineText children
  | none => by simp [childGlyphs, childLineText]
  | some ts => by
    rw [childGlyphs, childLineText]
    exact filterMap_char?_glyphsOf marks ts

theorem filterMap_char?_glyphsOf (marks : List Mark) : ∀ ts : List Token,
    (glyphsOf marks ts).filterMap Glyph.char? = lineTextOf ts
  | [] => by simp [glyphsOf, lineTextOf]
  | t :: ts => by
    rw [glyphsOf, lineTextOf, List.filterMap_append, filterMap_char?_glyphs marks t,
      filterMap_char?_glyphsOf marks ts]

end

theorem flatMap_allText_inlineContent (ts : List Token) :
    (inlineContent ts).flatMap Node.allText = lineTextOf ts := by
  rw [Node.flatMap_allText (isNormal_inlineContent ts).pieces, glyphsOf_inlineContent,
    filterMap_char?_glyphsOf]

theorem blockTextOf_eq_flatMap (ts : List Token) : blockTextOf ts = ts.flatMap blockText := by
  induction ts with
  | nil => simp [blockTextOf]
  | cons t ts ih => simp [blockTextOf, ih]

theorem childBlockText_eq (children : Option (List Token)) :
    childBlockText children = (children.getD []).flatMap blockText := by
  cases children with
  | none => simp [childBlockText]
  | some ts => simp [childBlockText, blockTextOf_eq_flatMap]

def itemText (t : Token) : List Char := t.children.flatMap blockText

theorem itemTextOf_eq_flatMap (ts : List Token) :
    itemTextOf ts = (ts.filter (·.name = "list_item")).flatMap itemText := by
  induction ts with
  | nil => simp [itemTextOf]
  | cons t ts ih =>
    obtain ⟨name, raw, style, attrs, children⟩ := t
    by_cases h : name = "list_item" <;>
      simp [itemTextOf, ih, h, Token.name, itemText, Token.children, children?, childBlockText_eq]

theorem blockText_eq (t : Token) :
    blockText t =
      if t.name = "paragraph" ∨ t.name = "heading" then lineTextOf t.children
      else if t.name = "block_code" then t.raw.toList
      else if t.name = "list" then itemTextOf t.children
      else if t.name = "block_quote" then t.children.flatMap blockText
      else [] := by
  obtain ⟨name, raw, style, attrs, children⟩ := t
  have hline : childLineText children = lineTextOf (children.getD []) := by
    cases children <;> simp [childLineText, lineTextOf]
  have hitems : childItemText children = itemTextOf (children.getD []) := by
    cases children <;> simp [childItemText, itemTextOf]
  unfold blockText
  split <;> simp_all [Token.name, Token.children, children?, childBlockText_eq, Token.raw, raw?]

theorem flatMap_allText_blocks {ts : List Token}
    (h : ∀ t ∈ ts, (block? t).toList.flatMap Node.allText = blockText t) :
    (blocks ts).flatMap Node.allText = ts.flatMap blockText := by
  rw [blocks_eq_filterMap, List.filterMap_eq_flatMap_toList, List.flatMap_assoc]
  exact List.flatMap_congr h

theorem toList_textBlock? (kind : NodeKind) (attrs : Fields) (t : Token) :
    (textBlock? kind attrs t).toList.flatMap Node.allText = lineTextOf t.children := by
  have htext := flatMap_allText_inlineContent t.children
  by_cases h : inlineContent t.children = []
  · rw [h] at htext
    simpa [textBlock?, h] using htext
  · simpa [textBlock?, h, Node.allText_branch] using htext

theorem allText_block (t : Token) : (block? t).toList.flatMap Node.allText = blockText t ∧
    t.item.allText = t.itemText := by
  -- A child may stand as a block or as an item, so the induction proves both at once.
  induction t using Token.induct with
  | step t ih =>
    have hblocks : (blocks t.children).flatMap Node.allText = t.children.flatMap blockText :=
      flatMap_allText_blocks fun u hu => (ih u hu).1
    have hitems : (items t.children).flatMap Node.allText = itemTextOf t.children := by
      rw [items_eq_map, itemTextOf_eq_flatMap, List.flatMap_map]
      exact List.flatMap_congr fun u hu => (ih u (List.mem_filter.mp hu).1).2
    refine ⟨?_, by rw [item, Node.allText_branch, hblocks, itemText]⟩
    rw [block?_eq, blockText_eq]
    by_cases hparagraph : t.name = "paragraph"
    · rw [if_pos hparagraph, if_pos (.inl hparagraph), toList_textBlock?]
    by_cases hheading : t.name = "heading"
    · rw [if_neg hparagraph, if_pos hheading, if_pos (.inr hheading), toList_textBlock?]
    rw [if_neg hparagraph, if_neg hheading, if_neg (not_or.mpr ⟨hparagraph, hheading⟩)]
    split
    · rw [codeBlock, Option.toList_some, List.flatMap_singleton, Node.allText_branch]
      split
      · next hraw => rw [hraw]; rfl
      · rw [List.flatMap_singleton, Node.allText_run]
    split
    · rw [list, Option.toList_some, List.flatMap_singleton, Node.allText_branch, hitems]
    split
    · rw [quotation, Option.toList_some, List.flatMap_singleton, Node.allText_branch, hblocks]
    · rfl

end Token

/-- Rendering a document keeps the texts of the text objects that it comes to, in the order of the
document; these are the text objects that stand where text is taken. A document made from tokens has
the text of the tokens. -/
theorem texts_kept_in_order :
    (∀ (root : Fields) (r : Rendering), Rendering.ofJson (.object root) = .ok r →
      (∀ f, f ∈ Fields.textObjects .block root ↔ ∃ p, Fields.StandsIn root p f ∧
        Fields.kind? f = some .text ∧ p.takes .text = true) ∧
      KeptIn ((Fields.textObjects .block root).map Fields.ownText) r.markdown) ∧
    ∀ tokens : List Token,
      (Node.ofTokens tokens).allText = Token.blockTextOf tokens := by
  refine ⟨fun root r h => ⟨fun f => ?_, ?_⟩, fun tokens => ?_⟩
  · rw [Fields.textObjects_eq_flatMap, List.mem_flatMap]
    constructor
    · rintro ⟨top, htop, hf⟩
      obtain ⟨p, hreach, htext⟩ := (Fields.mem_textObjectsAt_iff .block top).mp hf
      exact ⟨p, ⟨top, htop, hreach⟩, htext⟩
    · rintro ⟨p, ⟨top, htop, hreach⟩, htext⟩
      exact ⟨top, htop, (Fields.mem_textObjectsAt_iff .block top).mpr ⟨p, hreach, htext⟩⟩
  · obtain ⟨parts, hparts, hr⟩ := exists_of_bind_eq_ok h
    obtain rfl := Except.ok.inj hr
    have htexts : (Node.contentOfFields root).flatMap (Node.shownTexts .block) =
        (Fields.textObjects .block root).map Fields.ownText := by
      rw [Node.contentOfFields_eq_map, Fields.textObjects_eq_flatMap, List.flatMap_map,
        List.map_flatMap]
      exact List.flatMap_congr fun f _ => Fields.shownTexts_ofFields .block f
    rw [← htexts]
    exact .joinNonempty "\n\n"
      (Node.forall₂_keptIn_of_renderBlocks (fun x _ => Node.keptIn_renderBlock x) hparts)
  · rw [Node.ofTokens, Node.allText_branch, Token.blockTextOf_eq_flatMap]
    exact Token.flatMap_allText_blocks fun t _ => (Token.allText_block t).1

/-- An item in a quotation, with text around a mention, with code, and with text where blocks
and items stand. -/
theorem texts_kept_in_order_nested :
    let node (name : String) (content : List Json) : Json :=
      .object [("type", .text name), ("content", .array content)]
    let text (s : String) : Json := .object [("type", .text "text"), ("text", .text s)]
    let line : Json := node "paragraph" [text "a\n", node "mention" [text "m"], text "b"]
    let item : Json := node "listItem" [line, node "codeBlock" [text "c"], text "x"]
    let root : Fields :=
      [("content", .array [node "blockquote" [node "bulletList" [text "y", item]]])]
    ∃ r, Rendering.ofJson (.object root) = .ok r ∧ r.markdown = "> - a\n> b ```\n> c\n> ```" ∧
      (Fields.textObjects .block root).map Fields.ownText = ["a\n", "b", "c"] ∧
      KeptIn ["a\n", "b", "c"] r.markdown := by
  intro node text line item root
  have hmarkdown : (Rendering.ofJson (.object root)).toOption.map Rendering.markdown =
      some "> - a\n> b ```\n> c\n> ```" := by decide +kernel
  obtain ⟨r, h⟩ : ∃ r, Rendering.ofJson (.object root) = .ok r := ⟨_, rfl⟩
  have hr : r.markdown = "> - a\n> b ```\n> c\n> ```" := by
    rw [h] at hmarkdown
    exact Option.some.inj hmarkdown
  have htexts : (Fields.textObjects .block root).map Fields.ownText = ["a\n", "b", "c"] := rfl
  obtain ⟨hrender, -⟩ := texts_kept_in_order
  exact ⟨r, h, hr, htexts, htexts ▸ (hrender root r h).2⟩

end AdfMarkdown
