import AdfMarkdown.Markdown.BlockStart

/-! # Lines of blocks

The lines that belong to a block once its first line is known, and the lines that are left.
-/

namespace AdfMarkdown.Markdown

/-- The lines of a block and those after it. -/
structure Taken where
  lines : List Cursor
  left : List Cursor
  deriving Repr

namespace Taken

def nothing (left : List Cursor) : Taken := ⟨[], left⟩

def cons (c : Cursor) (t : Taken) : Taken := ⟨c :: t.lines, t.left⟩

def text (t : Taken) : List Char := t.lines.flatMap fun c => c.text ++ ['\n']

end Taken

namespace Fence

/-- The lines of code after an opening fence. The closing one is left out. -/
def take (f : Fence) : List Cursor → Taken
  | [] => .nothing []
  | c :: rest =>
    if BlockStart.closesFence f c then .nothing rest else (take f rest).cons (c.advance f.indent)

end Fence

namespace Html.BlockEnd

def take (ends : BlockEnd) : List Cursor → Taken
  | [] => .nothing []
  | c :: rest =>
    if ends = .blankLine ∧ c.isBlankLine then .nothing (c :: rest)
    else if ends.endsWith c.text then ⟨[c], rest⟩
    else (take ends rest).cons c

end Html.BlockEnd

namespace IndentedCode

def takeAll : List Cursor → Taken
  | [] => .nothing []
  | c :: rest =>
    if c.isBlankLine || 3 < c.indent then (takeAll rest).cons (c.advance 4)
    else .nothing (c :: rest)

def take (lines : List Cursor) : Taken :=
  let t := takeAll lines
  { t with lines := Text.trimRight Cursor.isBlankLine t.lines }

end IndentedCode

namespace Quotation

/-- The first line has nothing to which an unmarked line could belong. -/
def isStrict (first : Cursor) : Bool :=
  first.isBlankLine || 3 < first.indent || (BlockStart.openingSigns first.body).isSome

/-- The lines with the sign of a quotation, which they lose. -/
def takeMarked : List Cursor → Taken
  | [] => .nothing []
  | c :: rest =>
    match BlockStart.quote? c with
    | some inner => (takeMarked rest).cons inner
    | none => .nothing (c :: rest)

/-- The lines of a quotation after its first one. Unmarked ones belong to it up to a blank line,
and where nothing starts that ends a quotation. -/
def takeOpen (depth : Nat) : (afterBlank : Bool) → List Cursor → Taken
  | _, [] => .nothing []
  | afterBlank, c :: rest =>
    match BlockStart.quote? c with
    | some inner => (takeOpen depth inner.isBlankLine rest).cons inner
    | none =>
      if afterBlank || c.isBlankLine then .nothing (c :: rest)
      else match BlockStart.read? depth .beside c with
        | some .thematicBreak | some (.fence _) | some (.html _) | some (.item _) =>
          .nothing (c :: rest)
        | _ => (takeOpen depth false rest).cons c

def take (depth : Nat) (first : Cursor) (rest : List Cursor) : Taken :=
  if isStrict first then takeMarked rest else takeOpen depth false rest

end Quotation

namespace ItemStart

/-- What a line starts that is not indented as the content of the item. The block may be indented
as far as the sign of the item reaches. -/
def beside? (depth : Nat) (item : ItemStart) (c : Cursor) : Option BlockStart :=
  if item.signWidth < c.indent then none else BlockStart.read? depth .beside c

/-- The lines of an item after its first one. Lines that are not indented belong to it up to a
blank line, and where nothing starts. An item whose first line and the next one are blank takes
no more. -/
def takeFrom (depth : Nat) (item : ItemStart) : (afterBlank filled : Bool) → List Cursor → Taken
  | _, _, [] => .nothing []
  | afterBlank, filled, c :: rest =>
    if c.isBlankLine then (takeFrom depth item true filled rest).cons (.ofLine [])
    else if item.width ≤ c.indent then
      if afterBlank && !filled then .nothing (c :: rest)
      else (takeFrom depth item false true rest).cons (c.advance item.width)
    else if afterBlank || (item.beside? depth c).isSome then .nothing (c :: rest)
    else (takeFrom depth item false true rest).cons c

def take (depth : Nat) (item : ItemStart) (rest : List Cursor) : Taken :=
  item.takeFrom depth false item.content.isSome rest

/-- The lines of an item, without the blank ones at the end but for a first one. -/
def lines (item : ItemStart) (t : Taken) : List Cursor :=
  match item.content.toList ++ t.lines with
  | [] => []
  | c :: rest => c :: Text.trimRight (fun d => Text.isSpaces d.text) rest

end ItemStart

end AdfMarkdown.Markdown
