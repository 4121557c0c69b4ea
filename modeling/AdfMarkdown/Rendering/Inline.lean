import AdfMarkdown.Document.Basic
import AdfMarkdown.Text.Lines

/-! # Rendering runs of text

Innermost comes code, or else bold and italic; a link goes around them. Text is written as it
is, without escapes.
-/

namespace AdfMarkdown

def hasMark (kind : MarkKind) (marks : List Mark) : Bool := marks.any (·.kind == kind)

def Mark.destination? (m : Mark) : Option String :=
  if m.kind = .link ∧ m.href ≠ some "" then m.href else none

/-- The destination of the last link mark that has one. -/
def lastDestination (marks : List Mark) : Option String :=
  (marks.filterMap Mark.destination?).getLast?

/-- The text in the signs for code, bold and italic. Code leaves no room for the others. -/
def emphasized (text : String) (marks : List Mark) : String :=
  if hasMark .code marks then "`" ++ text ++ "`"
  else if hasMark .strong marks then
    if hasMark .em marks then "***" ++ text ++ "***" else "**" ++ text ++ "**"
  else if hasMark .em marks then "*" ++ text ++ "*"
  else text

def applyMarks (text : String) (marks : List Mark) : String :=
  match lastDestination marks with
  | some href => "[" ++ emphasized text marks ++ "](" ++ href ++ ")"
  | none => emphasized text marks

namespace Node

/-- What a node gives within a paragraph. -/
def inlineText : Node → String
  | known .hardBreak .. => "\n"
  | known .text _ _ text marks => applyMarks (text.getD "") marks
  | _ => ""

/-- The type name of a node that gives nothing within a paragraph. -/
def inlineSkipped? : Node → Option String
  | known .hardBreak .. => none
  | known .text .. => none
  | x => some x.typeName

def literalText : Node → String
  | known .text _ _ text _ => text.getD ""
  | _ => ""

def renderInline (nodes : List Node) : String := Text.join "" (nodes.map inlineText)

def skippedInline (nodes : List Node) : List String := nodes.filterMap inlineSkipped?

def plainText (nodes : List Node) : String := Text.join "" (nodes.map literalText)

end Node

end AdfMarkdown
