import AdfMarkdown.Text.Space

/-! # Position in a line

The part of a line that its containers have left over. Tabs reach to the next multiple of four
columns, and a container may take only some of the columns of a tab.
-/

namespace AdfMarkdown.Markdown

/-- The rest of a line: the column where `rest` begins, after `pending` columns of a tab that is
taken in part. -/
structure Cursor where
  rest : List Char
  column : Nat
  pending : Nat
  deriving DecidableEq, Repr

namespace Cursor

def ofLine (line : List Char) : Cursor := ⟨line, 0, 0⟩

def tabWidth (column : Nat) : Nat := 4 - column % 4

/-- The columns of the blanks at the start of a text that begins in a column. -/
def blankWidth : (column : Nat) → List Char → Nat
  | _, [] => 0
  | column, c :: s =>
    if c = ' ' then 1 + blankWidth (column + 1) s
    else if c = '\t' then tabWidth column + blankWidth (column + tabWidth column) s
    else 0

def indent (c : Cursor) : Nat := c.pending + blankWidth c.column c.rest

def takeBlanks : (n column : Nat) → List Char → Cursor
  | _, column, [] => ⟨[], column, 0⟩
  | n, column, c :: s =>
    if n = 0 then ⟨c :: s, column, 0⟩
    else if c = ' ' then takeBlanks (n - 1) (column + 1) s
    else if c = '\t' then
      let w := tabWidth column
      if w ≤ n then takeBlanks (n - w) (column + w) s
      else ⟨s, column + w, w - n⟩
    else ⟨c :: s, column, 0⟩

/-- The cursor after `n` columns of blanks, or after as many as there are. -/
def advance (n : Nat) (c : Cursor) : Cursor :=
  if n ≤ c.pending then { c with pending := c.pending - n }
  else takeBlanks (n - c.pending) c.column c.rest

def skipBlanks (c : Cursor) : Cursor := c.advance c.indent

def body (c : Cursor) : List Char := c.rest.dropWhile Text.isBlank

/-- The cursor after `n` characters that are no tabs. -/
def dropChars (n : Nat) (c : Cursor) : Cursor := ⟨c.rest.drop n, c.column + n, 0⟩

/-- The rest of the line as a text, with blanks for a tab that is taken in part. -/
def text (c : Cursor) : List Char := List.replicate c.pending ' ' ++ c.rest

def isFiller (c : Char) : Bool := c == ' ' || c == '\t' || c == '\x0b' || c == '\x0c'

/-- Nothing but blanks and form feeds is left. -/
def isBlankLine (c : Cursor) : Bool := c.rest.all isFiller

end Cursor

end AdfMarkdown.Markdown
