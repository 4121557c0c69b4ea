import AdfMarkdown.Json.Reader
import AdfMarkdown.Json.Writer
import AdfMarkdown.Rendering.Inline
import AdfMarkdown.Document.Wire
import AdfMarkdown.Warning

/-! # Rendering documents

Blocks that render empty leave no trace. Each item of a list comes after its marker, and its blocks
follow one another after a space. Each line of a quotation has the quotation sign.
-/

namespace AdfMarkdown

/-- Why a tree cannot be rendered: an item number has too many digits, or an attribute is of the
wrong kind. -/
inductive RenderError where
  | longNumber
  | levelNotInteger (kindName : String)
  | orderNotInteger (kindName : String)
  deriving DecidableEq, Repr

def RenderError.message : RenderError → String
  | longNumber =>
    "Exceeds the limit (" ++ toString Json.maxDigits ++ " digits) for integer string conversion" ++
      "; use sys.set_int_max_str_digits() to increase the limit"
  | levelNotInteger kindName => "can't multiply sequence by non-int of type '" ++ kindName ++ "'"
  | orderNotInteger kindName => "'" ++ kindName ++ "' object cannot be interpreted as an integer"

def itemNumber (n : Int) : Except RenderError String :=
  if n.natAbs < Nat.pow 10 Json.maxDigits then .ok (toString n) else .error .longNumber

/-- The items after their numbers, counted up from the first. -/
def numberItems (first : Int) : List String → Except RenderError (List String)
  | [] => .ok []
  | item :: rest => do
    let number ← itemNumber first
    let lines ← numberItems (first + 1) rest
    return (number ++ ". " ++ item) :: lines

def quoteLine (line : String) : String := if line = "" then ">" else "> " ++ line

/-- A text with the quotation sign on every line; nothing stays nothing. -/
def quote (text : String) : String :=
  if text = "" then "" else Text.join "\n" ((Text.lines text).map quoteLine)

def levelOf (attrs : Fields) : Except RenderError Nat :=
  match Fields.get? "level" attrs with
  | none => .ok 1
  | some v => match v.asNumber with
    | .int n => .ok n.toNat
    | v => .error (.levelNotInteger v.kindName)

def orderOf (attrs : Fields) : Except RenderError Int :=
  match Fields.get? "order" attrs with
  | none => .ok 1
  | some v => match v.asNumber with
    | .int n => .ok n
    | v => .error (.orderNotInteger v.kindName)

def languageOf (attrs : Fields) : String :=
  ((Fields.get? "language" attrs).map Json.inserted).getD ""

namespace Node

def isItem : Node → Bool
  | known .listItem .. => true
  | _ => false

mutual

/-- A node in the position of a block. -/
def renderBlock : Node → Except RenderError String
  | foreign _ => .ok ""
  | known kind content attrs _ _ =>
    match kind with
    | .paragraph => .ok (renderInline content)
    | .heading => do
      let level ← levelOf attrs
      return Text.times "#" level ++ " " ++ renderInline content
    | .codeBlock => .ok ("```" ++ languageOf attrs ++ "\n" ++ plainText content ++ "\n```")
    | .bulletList => do
      let items ← renderItems content
      return Text.join "\n" (items.map ("- " ++ ·))
    | .orderedList => do
      let items ← renderItems content
      let first ← orderOf attrs
      let lines ← numberItems first items
      return Text.join "\n" lines
    | .listItem => do
      let parts ← renderBlocks content
      return Text.joinNonempty " " parts
    | .blockquote => do
      let parts ← renderBlocks content
      return quote (Text.joinNonempty "\n\n" parts)
    | .hardBreak => .ok "\n"
    | .doc => .ok ""
    | .text => .ok ""

def renderBlocks : List Node → Except RenderError (List String)
  | [] => .ok []
  | x :: xs => do
    let part ← renderBlock x
    let parts ← renderBlocks xs
    return part :: parts

/-- The items among the children of a list. -/
def renderItems : List Node → Except RenderError (List String)
  | [] => .ok []
  | x :: xs =>
    if x.isItem then do
      let item ← renderBlock x
      let items ← renderItems xs
      return item :: items
    else renderItems xs

end

mutual

/-- The type names skipped in a node in the position of a block. -/
def skippedInBlock : Node → List String
  | foreign name => [name]
  | known kind content _ _ _ =>
    match kind with
    | .paragraph | .heading => skippedInline content
    | .bulletList | .orderedList => skippedInItems content
    | .listItem | .blockquote => skippedInBlocks content
    | .codeBlock | .hardBreak => []
    | .doc | .text => [kind.name]

def skippedInBlocks : List Node → List String
  | [] => []
  | x :: xs => skippedInBlock x ++ skippedInBlocks xs

def skippedInItems : List Node → List String
  | [] => []
  | known .listItem content _ _ _ :: xs => skippedInBlocks content ++ skippedInItems xs
  | x :: xs => x.typeName :: skippedInItems xs

end

end Node

/-- Markdown with the warnings about what it leaves out. -/
structure Rendering where
  markdown : String
  warnings : List Warning
  deriving Repr

namespace Rendering

def ofBlocks (blocks : List Node) : Except RenderError Rendering := do
  let parts ← Node.renderBlocks blocks
  return ⟨Text.joinNonempty "\n\n" parts,
    (SkippedNames.ofList (Node.skippedInBlocks blocks)).warnings⟩

/-- A typed tree; the kind of its root does not matter. -/
def ofNode (x : Node) : Except RenderError Rendering := ofBlocks x.content

/-- A document in JSON; what is no object renders empty. -/
def ofJson : Json → Except RenderError Rendering
  | .object fields => ofBlocks (Node.contentOfFields fields)
  | _ => .ok ⟨"", []⟩

end Rendering

end AdfMarkdown
