import AdfMarkdown.Json.Basic
import AdfMarkdown.UnknownName

/-! # Documents

The tree of the Atlassian Document Format, in the kinds of node that Markdown can express. A
node of any other kind keeps only its type name.
-/

namespace AdfMarkdown

inductive NodeKind where
  | doc
  | paragraph
  | heading
  | codeBlock
  | bulletList
  | orderedList
  | listItem
  | blockquote
  | text
  | hardBreak
  deriving DecidableEq, Repr, Inhabited

namespace NodeKind

def all : List NodeKind :=
  [doc, paragraph, heading, codeBlock, bulletList, orderedList, listItem, blockquote, text,
    hardBreak]

def name : NodeKind → String
  | doc => "doc"
  | paragraph => "paragraph"
  | heading => "heading"
  | codeBlock => "codeBlock"
  | bulletList => "bulletList"
  | orderedList => "orderedList"
  | listItem => "listItem"
  | blockquote => "blockquote"
  | text => "text"
  | hardBreak => "hardBreak"

def ofName? (s : String) : Option NodeKind := all.find? (·.name = s)

def ofName (s : String) : Except UnknownName NodeKind :=
  match ofName? s with
  | some kind => .ok kind
  | none => .error ⟨s, "NodeType"⟩

theorem mem_all (k : NodeKind) : k ∈ all := by cases k <;> decide

@[simp] theorem ofName?_name (k : NodeKind) : ofName? k.name = some k := by
  cases k <;> decide

theorem name_injective {j k : NodeKind} (h : j.name = k.name) : j = k := by
  have hj := ofName?_name j
  rw [h, ofName?_name] at hj
  exact (Option.some.inj hj).symm

theorem ofName?_eq_some_iff {s : String} {k : NodeKind} : ofName? s = some k ↔ k.name = s := by
  constructor
  · intro h
    simpa using List.find?_some h
  · rintro rfl
    exact ofName?_name k

end NodeKind

inductive MarkKind where
  | strong
  | em
  | code
  | link
  deriving DecidableEq, Repr, Inhabited

namespace MarkKind

def all : List MarkKind := [strong, em, code, link]

def name : MarkKind → String
  | strong => "strong"
  | em => "em"
  | code => "code"
  | link => "link"

def ofName? (s : String) : Option MarkKind := all.find? (·.name = s)

def ofName (s : String) : Except UnknownName MarkKind :=
  match ofName? s with
  | some kind => .ok kind
  | none => .error ⟨s, "MarkType"⟩

@[simp] theorem ofName?_name (k : MarkKind) : ofName? k.name = some k := by
  cases k <;> decide

end MarkKind

/-- A style on a run of text; a link has a destination. -/
structure Mark where
  kind : MarkKind
  href : Option String
  deriving DecidableEq, Repr, Inhabited

namespace Mark

def strong : Mark := ⟨.strong, none⟩

def em : Mark := ⟨.em, none⟩

def code : Mark := ⟨.code, none⟩

def link (href : String) : Mark := ⟨.link, some href⟩

end Mark

/-- A node of the tree. Only text has a text and marks, and only what is neither text nor a hard
break has content, in a well-formed tree. -/
inductive Node where
  | known (kind : NodeKind) (content : List Node) (attrs : Fields) (text : Option String)
      (marks : List Mark)
  | foreign (typeName : String)
  deriving Repr, Inhabited

namespace Node

def run (text : String) (marks : List Mark) : Node := known .text [] [] (some text) marks

def branch (kind : NodeKind) (content : List Node) (attrs : Fields) : Node :=
  known kind content attrs none []

def hardBreak : Node := known .hardBreak [] [] none []

def typeName : Node → String
  | known kind .. => kind.name
  | foreign name => name

def content : Node → List Node
  | known _ content .. => content
  | foreign _ => []

mutual

/-- Equal in structure, attributes in value and in any order. -/
def same : Node → Node → Bool
  | known k c a t m, known k' c' a' t' m' =>
    k == k' && sameAll c c' && (Json.object a).same (.object a') && t == t' && m == m'
  | foreign s, foreign t => s == t
  | _, _ => false

def sameAll : List Node → List Node → Bool
  | [], [] => true
  | x :: xs, y :: ys => same x y && sameAll xs ys
  | _, _ => false

end

end Node

end AdfMarkdown
