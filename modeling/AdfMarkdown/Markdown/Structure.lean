import AdfMarkdown.Markdown.Extension
import AdfMarkdown.Markdown.LeafBlock
import AdfMarkdown.Markdown.Table

/-! # Block structure

The blocks of a text are read one after the other. The lines of a container are collected first
and then read as a text of their own.
-/

namespace AdfMarkdown.Markdown

namespace Block

def endsInParagraph : List Block → Bool
  | paragraph _ :: _ => true
  | _ => false

/-- Add a line to the paragraph at the end, or begin one with it. -/
def addLine (c : Cursor) : List Block → List Block
  | paragraph text :: rest => paragraph (text ++ c.text ++ ['\n']) :: rest
  | blocks => paragraph (c.text ++ ['\n']) :: blocks

/-- Put a block in so that `n` blocks are before it; they are given last first. -/
def insertAfter (n : Nat) (b : Block) (blocks : List Block) : List Block :=
  blocks.take (blocks.length - n) ++ b :: blocks.drop (blocks.length - n)

def insertBeforeLast (b : Block) (blocks : List Block) : List Block :=
  insertAfter (blocks.length - 1) b blocks

end Block

/-- The blocks read so far in a container, last first, and the lines that are left. -/
structure Progress where
  blocks : List Block
  left : List Cursor
  deriving Repr

namespace Progress

def underlined? (c : Cursor) : List Block → Option (List Block)
  | .paragraph text :: blocks =>
    (BlockStart.underline? c).map fun level => .heading level text :: blocks
  | _ => none

/-- The link definition that begins with the first line, and how many lines it takes. It goes on
to a blank line at most. -/
def definition? (lines : List Cursor) : Option (Definition × Nat) := do
  let text := (Taken.mk (lines.takeWhile (!·.isBlankLine)) []).text
  let (d, rest) ← Definition.read? text
  return (d, (text.take (text.length - rest.length)).count '\n')

def table? (lines : List Cursor) : Option (Block × Nat) :=
  match lines with
  | c :: rest => if c.rest.contains '|' then Table.read? ((c :: rest).map Cursor.text) else none
  | [] => none

/-- A line that starts no block: it begins a link definition, unless it would interrupt a
paragraph, or a table, where there are tables, or it is text. -/
def readText (tables : Bool) (blocks : List Block) (c : Cursor) (rest : List Cursor) : Progress :=
  let fresh := !Block.endsInParagraph blocks
  match (if fresh && c.body.head? == some '[' then definition? (c :: rest) else none) with
  | some (d, n) => ⟨.definition d :: blocks, rest.drop (n - 1)⟩
  | none =>
    match (if tables then table? (c :: rest) else none) with
    | some (table, n) => ⟨table :: blocks, rest.drop (n - 1)⟩
    | none => ⟨Block.addLine c blocks, rest⟩

mutual

/-- The blocks of all lines, after those read before; last first. Tables stand at the top only,
where no container is around them. -/
def readAll (tables : Bool) : (fuel depth : Nat) → List Block → List Cursor → List Block
  | 0, _, blocks, _ => blocks
  | _ + 1, _, blocks, [] => blocks
  | fuel + 1, depth, blocks, c :: rest =>
    let p : Progress :=
      if c.isBlankLine then ⟨.blankLine :: blocks, rest⟩
      else match underlined? c blocks with
        | some blocks => ⟨blocks, rest⟩
        | none =>
          let position := if Block.endsInParagraph blocks then .paragraph else .fresh
          match BlockStart.read? depth position c with
          | some s => readBlock fuel depth blocks c rest s
          | none => readText (tables && depth == 0) blocks c rest
    readAll tables fuel depth p.blocks p.left
termination_by structural fuel => fuel

def readInside : (fuel depth : Nat) → List Cursor → List Block
  | 0, _, _ => []
  | fuel + 1, depth, lines => (readAll false fuel depth [] lines).reverse
termination_by structural fuel => fuel

/-- The block that the line `c` starts. A list right after a quotation comes before its end is
noticed, and so the quotation is put before the last block then. -/
def readBlock : (fuel depth : Nat) → List Block → Cursor → List Cursor → BlockStart → Progress
  | 0, _, blocks, _, rest, _ => ⟨blocks, rest⟩
  | fuel + 1, depth, blocks, c, rest, s =>
    match s with
    | .heading level text => ⟨.heading level text :: blocks, rest⟩
    | .thematicBreak => ⟨.thematicBreak :: blocks, rest⟩
    | .fence f =>
      let t := f.take rest
      ⟨.fencedCode f.info t.text :: blocks, t.left⟩
    | .html ends =>
      let t := ends.take (c :: rest)
      ⟨.html t.text :: blocks, t.left⟩
    | .indentedCode =>
      let t := IndentedCode.take (c :: rest)
      ⟨.indentedCode t.text :: blocks, t.left⟩
    | .quote first =>
      let t := Quotation.take depth first rest
      let block := Block.quote (readInside fuel (depth + 1) (first :: t.lines))
      match t.left with
      | next :: left =>
        match (if Quotation.isStrict first || next.isBlankLine then none
          else BlockStart.read? depth .beside next) with
        | some (.item item) =>
          let p := readBlock fuel depth blocks next left (.item item)
          ⟨Block.insertBeforeLast block p.blocks, p.left⟩
        | _ => ⟨block :: blocks, t.left⟩
      | [] => ⟨block :: blocks, []⟩
    | .item item =>
      if Block.endsInParagraph blocks && !item.interrupts then ⟨Block.addLine c blocks, rest⟩
      else readItems fuel depth blocks item.sign item.number [] item rest
termination_by structural fuel => fuel

/-- The list from one of its items on, after the items read before, last first. Where a block of
another kind follows right away, it is read first. -/
def readItems : (fuel depth : Nat) → List Block → ListSign → (start : Nat) → List (List Block) →
    ItemStart → List Cursor → Progress
  | 0, _, blocks, _, _, _, _, rest => ⟨blocks, rest⟩
  | fuel + 1, depth, blocks, sign, start, items, item, rest =>
    let t := item.take depth rest
    let items := readInside fuel (depth + 1) (item.lines t) :: items
    let list := Block.list sign start items.reverse
    match t.left with
    | c :: left =>
      match item.beside? depth c with
      | some (.item next) =>
        if next.sign = sign then readItems fuel depth blocks sign start items next left
        else ⟨list :: blocks, t.left⟩
      | some s =>
        let p := readBlock fuel depth blocks c left s
        ⟨Block.insertAfter blocks.length list p.blocks, p.left⟩
      | none => ⟨list :: blocks, t.left⟩
    | [] => ⟨list :: blocks, []⟩
termination_by structural fuel => fuel

end

end Progress

/-- The lines of a text. A carriage return, alone or before a line feed, ends a line too, and a
line end at the very end begins no line. -/
def textLines (s : List Char) : List (List Char) :=
  let rec unify : List Char → List Char
    | [] => []
    | '\r' :: '\n' :: s => '\n' :: unify s
    | '\r' :: s => '\n' :: unify s
    | c :: s => c :: unify s
  let lines := Text.splitAt '\n' (unify s)
  if lines.getLast? == some [] then lines.dropLast else lines

/-- The blocks of a text. Every step takes a line or goes into a container. -/
def readBlocks (ext : Extensions) (s : List Char) : List Block :=
  let lines := (textLines s).map Cursor.ofLine
  let fuel := (BlockStart.maxDepth + 2) * (4 * lines.length + 4)
  (Progress.readAll ext.table fuel 0 [] lines).reverse

end AdfMarkdown.Markdown
