import AdfMarkdown.Markdown.Link

/-! # Inline content

The tree of the content of a paragraph, heading or cell.
-/

namespace AdfMarkdown.Markdown

/-- A piece of inline content. An address in angle brackets or a bare one keeps its source. -/
inductive Inline where
  | text (s : List Char)
  | escaped (s : List Char)
  | code (s : List Char)
  | html (s : List Char)
  | softBreak
  | hardBreak
  | address (source text url : List Char)
  | emphasis (children : List Inline)
  | strong (children : List Inline)
  | strikethrough (children : List Inline)
  | link (target : Target) (named : Bool) (children : List Inline)
  | image (target : Target) (named : Bool) (children : List Inline)
  deriving Repr

namespace Inline

/-- The most containers inside each other. -/
def maxDepth : Nat := 20

mutual

/-- How many containers are inside each other, at most. -/
def depth : Inline → Nat
  | emphasis children | strong children | strikethrough children => depthOf children + 1
  | link _ _ children | image _ _ children => depthOf children + 1
  | _ => 0

def depthOf : List Inline → Nat
  | [] => 0
  | x :: xs => max (depth x) (depthOf xs)

end

mutual

/-- The piece with every address in its source form, as inside the text of a link. -/
def withoutAddresses : Inline → Inline
  | address source _ _ => text source
  | emphasis children => emphasis (listWithoutAddresses children)
  | strong children => strong (listWithoutAddresses children)
  | strikethrough children => strikethrough (listWithoutAddresses children)
  | image target named children => image target named (listWithoutAddresses children)
  | x => x

def listWithoutAddresses : List Inline → List Inline
  | [] => []
  | x :: xs => withoutAddresses x :: listWithoutAddresses xs

end

/-- Add a piece before others, neighbouring plain texts in one. -/
def consMerged (x : Inline) (rest : List Inline) : List Inline :=
  match x, rest with
  | text s, text t :: more => text (s ++ t) :: more
  | text [], rest => rest
  | x, rest => x :: rest

def mergeTexts (xs : List Inline) : List Inline := xs.foldr consMerged []

end Inline

end AdfMarkdown.Markdown
