import AdfMarkdown.Markdown.Link

/-! # Blocks

The tree of blocks of a Markdown text, whose inline content is still raw text.
-/

namespace AdfMarkdown.Markdown

inductive Alignment where
  | left
  | right
  | center
  deriving DecidableEq, Repr

/-- The sign of a list: a bullet, or the delimiter after a number. Items with one sign make one
list. -/
inductive ListSign where
  | bullet (sign : Char)
  | number (delimiter : Char)
  deriving DecidableEq, Repr

/-- A block. The text of a paragraph or heading is as it is written, with its line ends. -/
inductive Block where
  | blankLine
  | thematicBreak
  | paragraph (text : List Char)
  | heading (level : Nat) (text : List Char)
  | indentedCode (code : List Char)
  | fencedCode (info code : List Char)
  | html (text : List Char)
  | definition (d : Definition)
  | table (alignments : List (Option Alignment)) (head : List (List Char))
      (rows : List (List (List Char)))
  | quote (blocks : List Block)
  | list (sign : ListSign) (start : Nat) (items : List (List Block))
  deriving Repr

namespace Block

mutual

def definitions : Block → List Definition
  | definition d => [d]
  | quote blocks => definitionsOf blocks
  | list _ _ items => definitionsOfItems items
  | _ => []

def definitionsOf : List Block → List Definition
  | [] => []
  | b :: bs => definitions b ++ definitionsOf bs

def definitionsOfItems : List (List Block) → List Definition
  | [] => []
  | item :: items => definitionsOf item ++ definitionsOfItems items

end

end Block

end AdfMarkdown.Markdown
