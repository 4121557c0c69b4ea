import AdfMarkdown.Rendering.Block

/-! # Reading back what is written

Reading a written node gives the node with its attributes in their range, its missing text empty
and its marks without the links that lead nowhere. Reading looks at nothing else, so rendering a
written node renders the nodes read back from its content.
-/

namespace AdfMarkdown

/-- The mark read where this one is written: none for a link that leads nowhere. -/
def Mark.reread? (m : Mark) : Option Mark :=
  if m.kind = .link then
    if m.href.getD "" = "" then none else some (.link (m.href.getD ""))
  else some ⟨m.kind, none⟩

theorem Mark.ofJson?_toJson (m : Mark) : Mark.ofJson? m.toJson = m.reread? := by
  by_cases h : m.kind = .link <;>
    simp [Mark.ofJson?, Mark.toJson, Mark.reread?, Json.get?, Fields.get?, Json.text?, h]

theorem Mark.listOfJson_map_toJson (marks : List Mark) :
    Mark.listOfJson (some (.array (marks.map Mark.toJson))) = marks.filterMap Mark.reread? := by
  simp only [Mark.listOfJson, List.filterMap_map, Function.comp_def, Mark.ofJson?_toJson]

namespace Node

def ofJson? : Json → Option Node
  | .object fields => some (ofFields fields)
  | _ => none

mutual

/-- The node read where this one is written. -/
def reread : Node → Node
  | foreign name => ofFields [("type", .text name)]
  | known kind content attrs text marks =>
    match kind with
    | .text => run (text.getD "") (marks.filterMap Mark.reread?)
    | .hardBreak => hardBreak
    | kind => branch kind (rereadAll content) (attributesFor kind (.object attrs))

def rereadAll : List Node → List Node
  | [] => []
  | x :: xs => reread x :: rereadAll xs

end

theorem rereadAll_eq_map (xs : List Node) : rereadAll xs = xs.map reread := by
  induction xs with
  | nil => simp [rereadAll]
  | cons x xs ih => simp [rereadAll, ih]

theorem attributesFor_null (kind : NodeKind) :
    attributesFor kind .null = attributesFor kind (.object []) := by
  cases kind <;> rfl

theorem ofFields_branch {kind : NodeKind} (ht : kind ≠ .text) (hb : kind ≠ .hardBreak)
    {fields attrs : Fields} (htype : Fields.get? "type" fields = some (.text kind.name))
    (hattrs : (Fields.get? "attrs" fields).getD (.object []) = .object attrs) :
    ofFields fields =
      branch kind (contentOfFields fields) (attributesFor kind (.object attrs)) := by
  have ha : attributesFor kind ((Fields.get? "attrs" fields).getD .null) =
      attributesFor kind (.object attrs) := by
    rw [← hattrs]
    cases Fields.get? "attrs" fields with
    | none => exact attributesFor_null kind
    | some v => rfl
  have hk : NodeKind.ofName? kind.name = some kind := NodeKind.ofName?_name kind
  rw [ofFields, assemble]
  simp only [htype, Option.bind_some, Json.text?, Option.getD_some, hk, ha]

theorem toJson_branch {kind : NodeKind} (ht : kind ≠ .text) (hb : kind ≠ .hardBreak)
    (content : List Node) (attrs : Fields) (text : Option String) (marks : List Mark) :
    ∃ fields, (known kind content attrs text marks).toJson = .object fields ∧
      Fields.get? "type" fields = some (.text kind.name) ∧
      (Fields.get? "attrs" fields).getD (.object []) = .object attrs ∧
      contentOfFields fields = ofItems (listToJson content) := by
  refine ⟨_, rfl, rfl, ?_, ?_⟩
  · cases kind <;> by_cases ha : attrs = [] <;> simp_all [Fields.get?]
  · cases kind <;> by_cases ha : attrs = [] <;> simp_all [contentOfFields, listOfJson]

theorem ofJson?_toJson_text (content : List Node) (attrs : Fields) (text : Option String)
    (marks : List Mark) :
    ofJson? (known .text content attrs text marks).toJson =
      some (run (text.getD "") (marks.filterMap Mark.reread?)) := by
  have ht : NodeKind.ofName? "text" = some .text := NodeKind.ofName?_name .text
  rw [← Mark.listOfJson_map_toJson]
  cases marks with
  | nil => simp [toJson, ofJson?, ofFields, assemble, Fields.get?, Json.text?, NodeKind.name, ht,
      Mark.listOfJson]
  | cons m marks => simp [toJson, ofJson?, ofFields, assemble, Fields.get?, Json.text?,
      NodeKind.name, ht]

theorem reread_branch {kind : NodeKind} (ht : kind ≠ .text) (hb : kind ≠ .hardBreak)
    (content : List Node) (attrs : Fields) (text : Option String) (marks : List Mark) :
    reread (known kind content attrs text marks) =
      branch kind (rereadAll content) (attributesFor kind (.object attrs)) := by
  cases kind <;> simp_all [reread]

/-- The fields are those that a node of the kind has, and the attributes are as they are read. -/
structure OwnFields (kind : NodeKind) (content : List Node) (attrs : Fields)
    (text : Option String) (marks : List Mark) : Prop where
  attributesFor_eq : attributesFor kind (.object attrs) = attrs
  content_eq_nil : kind = .text ∨ kind = .hardBreak → content = []
  isSome_text : text.isSome ↔ kind = .text
  marks_eq_nil : kind ≠ .text → marks = []

theorem OwnFields.reread_eq {kind : NodeKind} {content : List Node} {attrs : Fields}
    {text : Option String} {marks : List Mark} (h : OwnFields kind content attrs text marks) :
    reread (known kind content attrs text marks) =
      known kind (rereadAll content) attrs text (marks.filterMap Mark.reread?) := by
  obtain ⟨hattrs, hleaf, htext, hmarks⟩ := h
  by_cases ht : kind = .text
  · subst ht
    obtain rfl := hleaf (.inl rfl)
    obtain rfl : [] = attrs := hattrs
    obtain ⟨s, rfl⟩ := Option.isSome_iff_exists.mp (htext.mpr rfl)
    simp [reread, run, rereadAll]
  obtain rfl := hmarks ht
  obtain rfl : text = none := by simpa [ht] using htext
  by_cases hb : kind = .hardBreak
  · subst hb
    obtain rfl := hleaf (.inr rfl)
    obtain rfl : [] = attrs := hattrs
    rfl
  · rw [reread_branch ht hb, hattrs]
    rfl

mutual

theorem ofJson?_toJson : ∀ x : Node, ofJson? x.toJson = some x.reread
  | foreign name => rfl
  | known kind content attrs text marks => by
    by_cases ht : kind = .text
    · subst ht
      exact ofJson?_toJson_text content attrs text marks
    by_cases hb : kind = .hardBreak
    · subst hb; rfl
    obtain ⟨fields, hj, htype, hattrs, hc⟩ := toJson_branch ht hb content attrs text marks
    rw [hj, ofJson?, ofFields_branch ht hb htype hattrs, hc, ofItems_listToJson content,
      reread_branch ht hb]

theorem ofItems_listToJson : ∀ xs : List Node, ofItems (listToJson xs) = rereadAll xs
  | [] => rfl
  | x :: xs => by
    have h := ofJson?_toJson x
    rw [listToJson, rereadAll, ← ofItems_listToJson xs]
    cases hj : x.toJson <;> simp_all [ofJson?, ofItems, ofFields]

end

end Node

/-- Rendering a written node renders the nodes read back from its content. -/
theorem Rendering.ofJson_toJson {kind : NodeKind} (ht : kind ≠ .text) (hb : kind ≠ .hardBreak)
    (content : List Node) (attrs : Fields) (text : Option String) (marks : List Mark) :
    Rendering.ofJson (Node.known kind content attrs text marks).toJson =
      Rendering.ofBlocks (Node.rereadAll content) := by
  obtain ⟨fields, hj, -, -, hc⟩ := Node.toJson_branch ht hb content attrs text marks
  rw [hj, Rendering.ofJson, hc, Node.ofItems_listToJson]

end AdfMarkdown
