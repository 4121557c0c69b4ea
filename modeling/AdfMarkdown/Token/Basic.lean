import AdfMarkdown.Json.Basic

/-! # Tokens

The tree that reading Markdown gives: every token has a type name and, as the type asks for it,
a raw text, a style, attributes and children. The set of type names is open.
-/

namespace AdfMarkdown

/-- A token. A type name of its own that is missing is the empty text. -/
inductive Token where
  | mk (name : String) (raw : Option String) (style : Option String) (attrs : Option Fields)
      (children : Option (List Token))
  deriving Repr, Inhabited

namespace Token

def name : Token → String
  | mk name .. => name

def raw? : Token → Option String
  | mk _ raw .. => raw

def style? : Token → Option String
  | mk _ _ style .. => style

def attrs? : Token → Option Fields
  | mk _ _ _ attrs _ => attrs

def children? : Token → Option (List Token)
  | mk _ _ _ _ children => children

/-- The raw text, empty if there is none. -/
def raw (t : Token) : String := t.raw?.getD ""

def attr? (key : String) (t : Token) : Option Json := Fields.get? key (t.attrs?.getD [])

def children (t : Token) : List Token := t.children?.getD []

def leaf (name raw : String) : Token := mk name (some raw) none none none

def bare (name : String) : Token := mk name none none none none

def branch (name : String) (children : List Token) : Token := mk name none none none (some children)

def branchWith (name : String) (attrs : Fields) (children : List Token) : Token :=
  mk name none none (some attrs) (some children)

mutual

/-- The token as JSON, without what is absent. The raw text comes before the attributes. -/
def toJson : Token → Json
  | mk name raw style attrs children =>
    .object (("type", .text name) ::
      ((match raw with
        | some s => [("raw", .text s)]
        | none => []) ++
      (match style with
        | some s => [("style", .text s)]
        | none => []) ++
      (match attrs with
        | some fields => [("attrs", .object fields)]
        | none => []) ++
      (match children with
        | some ts => [("children", .array (listToJson ts))]
        | none => [])))

def listToJson : List Token → List Json
  | [] => []
  | t :: ts => toJson t :: listToJson ts

end

/-- The token that an object writes, given its children. -/
def assemble (fields : Fields) (children : Option (List Token)) : Token :=
  let text (key : String) := (Fields.get? key fields).bind Json.text?
  let attrs := match Fields.get? "attrs" fields with
    | some (.object attrs) => some attrs
    | _ => none
  mk ((text "type").getD "") (text "raw") (text "style") attrs children

mutual

def childrenOfFields : List (String × Json) → Option (List Token)
  | [] => none
  | (k, v) :: rest => if k = "children" then listOfJson? v else childrenOfFields rest

def listOfJson? : Json → Option (List Token)
  | .array items => some (ofItems items)
  | _ => none

def ofItems : List Json → List Token
  | [] => []
  | .object fields :: rest => assemble fields (childrenOfFields fields) :: ofItems rest
  | _ :: rest => ofItems rest

end

end Token

end AdfMarkdown
