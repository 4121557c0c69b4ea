import AdfMarkdown.Document.Basic
import AdfMarkdown.Token.Basic

/-! # Runs of text from tokens

Inline tokens are flattened, each run of text with the marks of what encloses it, outermost
first. Then neighbours with equal marks become one run.
-/

namespace AdfMarkdown

namespace Token

def url (t : Token) : String := ((t.attr? "url").bind Json.text?).getD ""

mutual

/-- The nodes of one token under the marks that enclose it. A token of a type that is not known
here stands for its children. -/
def inlineNodes (marks : List Mark) : Token → List Node
  | mk name raw style attrs children =>
    match name with
    | "text" => if raw.getD "" = "" then [] else [.run (raw.getD "") marks]
    | "codespan" => if raw.getD "" = "" then [] else [.run (raw.getD "") (marks ++ [.code])]
    | "softbreak" => [.run "\n" marks]
    | "linebreak" => [.hardBreak]
    | "emphasis" => childNodes (marks ++ [.em]) children
    | "strong" => childNodes (marks ++ [.strong]) children
    | "link" => childNodes (marks ++ [.link (url (mk name raw style attrs none))]) children
    | _ => childNodes marks children

def childNodes (marks : List Mark) : Option (List Token) → List Node
  | none => []
  | some ts => inlineNodesOf marks ts

def inlineNodesOf (marks : List Mark) : List Token → List Node
  | [] => []
  | t :: ts => inlineNodes marks t ++ inlineNodesOf marks ts

end

end Token

namespace Node

/-- The one run that two neighbouring runs with equal marks make. -/
def merge? : Node → Node → Option Node
  | known .text content attrs text marks, known .text _ _ text' marks' =>
    if marks = marks' then
      some (known .text content attrs (some (text.getD "" ++ text'.getD "")) marks)
    else none
  | _, _ => none

/-- Add a node at the end, into the last one if the two make one run. The nodes before it are
given last first. -/
def pushMerged (done : List Node) (x : Node) : List Node :=
  match done with
  | [] => [x]
  | last :: rest => match merge? last x with
    | some y => y :: rest
    | none => x :: last :: rest

/-- Neighbouring runs with equal marks made one. -/
def consolidate (nodes : List Node) : List Node := (nodes.foldl pushMerged []).reverse

end Node

/-- The content of a paragraph or heading. -/
def Token.inlineContent (tokens : List Token) : List Node :=
  Node.consolidate (Token.inlineNodesOf [] tokens)

end AdfMarkdown
