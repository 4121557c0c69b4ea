import AdfMarkdown.Token.Inline
import AdfMarkdown.Warning

/-! # Documents from tokens

Paragraphs, headings, code, lists and quotations have a node each. Any other block token is left
out and its type name recorded; its siblings stay.
-/

namespace AdfMarkdown

namespace Token

def ordered (t : Token) : Bool := ((t.attr? "ordered").map Json.truthy).getD false

/-- The attributes of a list. Only an ordered one that does not start at one has some. -/
def listAttrs (t : Token) : Fields :=
  let start := (t.attr? "start").getD (.int 1)
  if t.ordered && !start.same (.int 1) then [("order", start)] else []

def headingAttrs (t : Token) : Fields := [("level", (t.attr? "level").getD (.int 1))]

def codeAttrs (t : Token) : Fields :=
  match t.attr? "language" with
  | some v => if v.truthy then [("language", v)] else []
  | none => []

/-- The name under which a block token is recorded when it is left out. -/
def skippedName (t : Token) : String := if t.name = "" then "unknown" else t.name

/-- The block with the given inline content, if there is any. -/
def textBlock? (kind : NodeKind) (attrs : Fields) (t : Token) : Option Node :=
  let content := inlineContent t.children
  if content.isEmpty then none else some (.branch kind content attrs)

def codeBlock (t : Token) : Node :=
  .branch .codeBlock (if t.raw = "" then [] else [.run t.raw []]) t.codeAttrs

mutual

/-- The node of a block token, if it has one. -/
def block? : Token → Option Node
  | mk name raw style attrs children =>
    let self := mk name raw style attrs children
    match name with
    | "paragraph" => textBlock? .paragraph [] self
    | "heading" => textBlock? .heading self.headingAttrs self
    | "block_code" => some self.codeBlock
    | "list" =>
      some (.branch (if self.ordered then .orderedList else .bulletList) (childItems children)
        self.listAttrs)
    | "block_quote" => some (.branch .blockquote (childBlocks children) [])
    | _ => none

def childBlocks : Option (List Token) → List Node
  | none => []
  | some ts => blocks ts

def childItems : Option (List Token) → List Node
  | none => []
  | some ts => items ts

def blocks : List Token → List Node
  | [] => []
  | t :: ts => match block? t with
    | some x => x :: blocks ts
    | none => blocks ts

/-- The items among the children of a list. -/
def items : List Token → List Node
  | [] => []
  | mk name _ _ _ children :: ts =>
    if name = "list_item" then .branch .listItem (childBlocks children) [] :: items ts
    else items ts

end

mutual

/-- The names recorded for a block token. -/
def skippedInBlock : Token → List String
  | mk name raw style attrs children =>
    match name with
    | "paragraph" | "heading" | "block_code" => []
    | "list" => skippedInChildItems children
    | "block_quote" => skippedInChildBlocks children
    | _ => [skippedName (mk name raw style attrs none)]

def skippedInChildBlocks : Option (List Token) → List String
  | none => []
  | some ts => skippedInBlocks ts

def skippedInChildItems : Option (List Token) → List String
  | none => []
  | some ts => skippedInItems ts

def skippedInBlocks : List Token → List String
  | [] => []
  | t :: ts => skippedInBlock t ++ skippedInBlocks ts

def skippedInItems : List Token → List String
  | [] => []
  | mk name _ _ _ children :: ts =>
    (if name = "list_item" then skippedInChildBlocks children else []) ++ skippedInItems ts

end

end Token

def Node.ofTokens (tokens : List Token) : Node := .branch .doc (Token.blocks tokens) []

def SkippedNames.ofTokens (tokens : List Token) : SkippedNames :=
  .ofList (Token.skippedInBlocks tokens)

end AdfMarkdown
