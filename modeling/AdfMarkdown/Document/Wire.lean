import AdfMarkdown.Document.Basic
import AdfMarkdown.Number.Text

/-! # Documents as JSON

Writing leaves out what is absent. Reading never fails: what is of the wrong shape is left out,
attributes are brought into their range, and a node of an unknown kind keeps its type name.
-/

namespace AdfMarkdown

def Mark.toJson (m : Mark) : Json :=
  .object (("type", .text m.kind.name) ::
    if m.kind = .link then [("attrs", .object [("href", .text (m.href.getD ""))])] else [])

/-- The mark that a value writes. A link needs a destination. -/
def Mark.ofJson? (v : Json) : Option Mark := do
  let name ← (← v.get? "type").text?
  let kind ← MarkKind.ofName? name
  if kind = .link then
    let href ← (← (← v.get? "attrs").get? "href").text?
    if href = "" then none else some (.link href)
  else some ⟨kind, none⟩

def Mark.listOfJson : Option Json → List Mark
  | some (.array items) => items.filterMap Mark.ofJson?
  | _ => []

def clampLevel (n : Int) : Int := max 1 (min 6 n)

/-- The number that a value of any kind stands for as a heading level. -/
def numericValue? : Json → Option Binary64
  | .int n => some (.ofInt n)
  | .float x => some x
  | .text s => Binary64.ofText? s
  | _ => none

/-- The level of a heading: the whole part of a number, brought between one and six, and one
for what is no finite number. -/
def headingLevel (v : Json) : Int :=
  match (numericValue? v).bind Binary64.truncate? with
  | some n => clampLevel n
  | none => 1

/-- The first number of an ordered list: the whole part of a number, at least zero. -/
def listOrder? : Json → Option Int
  | .int n => some (max 0 n)
  | .float x => x.truncate?.map (max 0)
  | _ => none

/-- The language of a code block: a text that is not empty. -/
def codeLanguage? : Json → Option String
  | .text s => if s = "" then none else some s
  | _ => none

def attributesFor (kind : NodeKind) (attrs : Json) : Fields :=
  match kind with
  | .heading => [("level", .int (headingLevel ((attrs.get? "level").getD .null)))]
  | .codeBlock =>
    match (attrs.get? "language").bind codeLanguage? with
    | some s => [("language", .text s)]
    | none => []
  | .orderedList =>
    match (attrs.get? "order").bind listOrder? with
    | some n => [("order", .int n)]
    | none => []
  | _ => []

namespace Node

mutual

/-- The node as JSON, without absent fields. -/
def toJson : Node → Json
  | foreign name => .object [("type", .text name)]
  | known kind content attrs text marks =>
    .object (("type", .text kind.name) :: match kind with
      | .text =>
        ("text", .text (text.getD "")) ::
          if marks.isEmpty then [] else [("marks", .array (marks.map Mark.toJson))]
      | .hardBreak => []
      | kind =>
        (if kind = .doc then [("version", .int 1)] else []) ++
          (if attrs.isEmpty then [] else [("attrs", .object attrs)]) ++
          [("content", .array (listToJson content))])

def listToJson : List Node → List Json
  | [] => []
  | x :: xs => toJson x :: listToJson xs

end

/-- The node that an object writes, given the nodes in its content. -/
def assemble (fields : Fields) (content : List Node) : Node :=
  let name := ((Fields.get? "type" fields).bind Json.text?).getD "unknown"
  match NodeKind.ofName? name with
  | none => foreign name
  | some .text =>
    run (((Fields.get? "text" fields).bind Json.text?).getD "")
      (Mark.listOfJson (Fields.get? "marks" fields))
  | some .hardBreak => hardBreak
  | some kind =>
    branch kind content (attributesFor kind ((Fields.get? "attrs" fields).getD .null))

mutual

def contentOfFields : List (String × Json) → List Node
  | [] => []
  | (k, v) :: rest => if k = "content" then listOfJson v else contentOfFields rest

def listOfJson : Json → List Node
  | .array items => ofItems items
  | _ => []

def ofItems : List Json → List Node
  | [] => []
  | .object fields :: rest => assemble fields (contentOfFields fields) :: ofItems rest
  | _ :: rest => ofItems rest

end

def ofFields (fields : Fields) : Node := assemble fields (contentOfFields fields)

theorem contentOfFields_eq (fields : Fields) :
    contentOfFields fields = listOfJson ((Fields.get? "content" fields).getD .null) := by
  induction fields with
  | nil => simp [contentOfFields, listOfJson]
  | cons f rest ih =>
    by_cases h : f.1 = "content" <;> simp [contentOfFields, Fields.get?, h, ih]

end Node

end AdfMarkdown
