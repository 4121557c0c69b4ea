import AdfMarkdown.Markdown.Scanner
import AdfMarkdown.Markdown.Structure
import AdfMarkdown.Token.Basic

/-! # Reading Markdown

The tokens of a text: its block structure first, then the inline content of each block under
the definitions found anywhere in the text.
-/

namespace AdfMarkdown.Markdown

namespace Inline

/-- The attributes of a link. The title of a named one stands even when there is none. -/
def targetAttrs (t : Target) (named : Bool) : Fields :=
  ("url", .text t.url) :: match t.title with
    | some title => [("title", .text title)]
    | none => if named then [("title", .null)] else []

mutual

def toToken : Inline → Token
  | text s | escaped s => .leaf "text" (String.ofList s)
  | code s => .leaf "codespan" (String.ofList s)
  | html s => .leaf "inline_html" (String.ofList s)
  | softBreak => .bare "softbreak"
  | hardBreak => .bare "linebreak"
  | address _ shown url =>
    .branchWith "link" [("url", .text (String.ofList url))] [.leaf "text" (String.ofList shown)]
  | emphasis children => .branch "emphasis" (listToTokens children)
  | strong children => .branch "strong" (listToTokens children)
  | strikethrough children => .branch "strikethrough" (listToTokens children)
  | link target named children =>
    .branchWith "link" (targetAttrs target named) (listToTokens children)
  | image target named children =>
    .branchWith "image" (targetAttrs target named) (listToTokens children)

def listToTokens : List Inline → List Token
  | [] => []
  | x :: xs => toToken x :: listToTokens xs

end

end Inline

namespace Block

/-- The tokens of a text without the blanks around it; an empty text is one token too. -/
def textTokens (ctx : InlineContext) (s : List Char) : List Token :=
  let s := Text.trim BlockStart.isEdge s
  if s.isEmpty then [.leaf "text" ""] else Inline.listToTokens (readInline ctx s)

def alignmentName : Option Alignment → Json
  | none => .null
  | some .left => .text "left"
  | some .right => .text "right"
  | some .center => .text "center"

def cellTokens (ctx : InlineContext) (head : Bool) (alignments : List (Option Alignment))
    (cells : List (List Char)) : List Token :=
  (alignments.zip cells).map fun (a, cell) =>
    .branchWith "table_cell" [("align", alignmentName a), ("head", .bool head)]
      (textTokens ctx cell)

def tableToken (ctx : InlineContext) (alignments : List (Option Alignment))
    (head : List (List Char)) (rows : List (List (List Char))) : Token :=
  .branch "table" [.branch "table_head" (cellTokens ctx true alignments head),
    .branch "table_body" (rows.map fun r =>
      .branch "table_row" (cellTokens ctx false alignments r))]

/-- The box at the start of a text and the text after it. -/
def taskBox? (s : List Char) : Option (Bool × List Char) :=
  match s with
  | '[' :: x :: ']' :: c :: rest =>
    if (x == ' ' || x == 'x' || x == 'X') && Text.isSpace c then
      some (x != ' ', rest.dropWhile Text.isSpace)
    else none
  | _ => none

def withoutBox (s : List Char) : List Char := ((taskBox? s).map (·.2)).getD s

/-- Whether the box at the start of an item is checked, if there is one. -/
def checked? (ctx : InlineContext) (item : List Block) : Option Bool :=
  if !ctx.extensions.taskLists then none
  else match item with
    | paragraph s :: _ => (taskBox? s).map (·.1)
    | heading _ s :: _ => (taskBox? s).map (·.1)
    | _ => none

mutual

/-- The tokens of a block in `depth` containers; a definition has none. A boxed one loses the
box at the start of its text. -/
def toTokens (ctx : InlineContext) (depth : Nat) (boxed : Bool) : Block → List Token
  | blankLine => [.bare "blank_line"]
  | thematicBreak => [.bare "thematic_break"]
  | paragraph s => [.branch "paragraph" (textTokens ctx (if boxed then withoutBox s else s))]
  | heading level s =>
    [.branchWith "heading" [("level", .int level)]
      (textTokens ctx (if boxed then withoutBox s else s))]
  | indentedCode code => [.mk "block_code" (some (String.ofList code)) (some "indent") none none]
  | fencedCode info code =>
    [.mk "block_code" (some (String.ofList code)) (some "fenced")
      (if info.isEmpty then none else some [("info", .text (String.ofList info))]) none]
  | html s => [.leaf "block_html" (String.ofList s)]
  | definition _ => []
  | table alignments head rows => [tableToken ctx alignments head rows]
  | quote blocks => [.branch "block_quote" (listToTokens ctx (depth + 1) false blocks)]
  | list sign start items =>
    let ordered := match sign with
      | .bullet _ => false
      | .number _ => true
    [.branchWith "list"
      ([("depth", .int depth), ("ordered", .bool ordered)] ++
        if ordered && start != 1 then [("start", .int start)] else [])
      (itemTokens ctx (depth + 1) items)]

/-- The tokens of blocks, the first of which may be boxed. -/
def listToTokens (ctx : InlineContext) (depth : Nat) (boxed : Bool) : List Block → List Token
  | [] => []
  | b :: bs => toTokens ctx depth boxed b ++ listToTokens ctx depth false bs

def itemTokens (ctx : InlineContext) (depth : Nat) : List (List Block) → List Token
  | [] => []
  | item :: items =>
    let token := match checked? ctx item with
      | some checked =>
        Token.branchWith "task_list_item" [("checked", .bool checked)]
          (listToTokens ctx depth true item)
      | none => .branch "list_item" (listToTokens ctx depth false item)
    token :: itemTokens ctx depth items

end

end Block

/-- What gives the tokens of a text. -/
abbrev Parser := String → List Token

/-- The parser with some extensions switched on. -/
def read (ext : Extensions) : Parser := fun s =>
  let blocks := readBlocks ext s.toList
  Block.listToTokens ⟨ext, Block.definitionsOf blocks⟩ 0 false blocks

end AdfMarkdown.Markdown
