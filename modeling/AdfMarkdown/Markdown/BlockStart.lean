import AdfMarkdown.Markdown.Block
import AdfMarkdown.Markdown.Cursor
import AdfMarkdown.Markdown.Html

/-! # Starts of blocks

What the beginning of a line can start: a container, which goes on with the rest of the line, or
a block that takes the whole line.
-/

namespace AdfMarkdown.Markdown

structure Fence where
  sign : Char
  length : Nat
  indent : Nat
  info : List Char
  deriving DecidableEq, Repr

/-- The first line of a list item: its sign and number, the columns up to the end of the sign and
up to the content, and the content unless there is none. -/
structure ItemStart where
  sign : ListSign
  number : Nat
  signWidth : Nat
  width : Nat
  content : Option Cursor
  deriving Repr

/-- The item can interrupt a paragraph: it has content and the number one. -/
def ItemStart.interrupts (item : ItemStart) : Bool := item.content.isSome && item.number == 1

inductive BlockStart where
  | quote (rest : Cursor)
  | item (start : ItemStart)
  | heading (level : Nat) (text : List Char)
  | thematicBreak
  | fence (f : Fence)
  | html (ends : Html.BlockEnd)
  | indentedCode
  deriving Repr

namespace BlockStart

def isEdge (c : Char) : Bool := c == ' ' || c == '\t' || c == '\n' || c == '\r' || c == '\x0c'

/-- The most containers around a container. -/
def maxDepth : Nat := 20

/-- After the sign of a quotation and the blank that goes with it. -/
def quote? (c : Cursor) : Option Cursor :=
  if 3 < c.indent then none
  else match c.skipBlanks.rest with
    | '>' :: _ => some ((c.skipBlanks.dropChars 1).advance 1)
    | _ => none

def withoutClosing (s : List Char) : List Char :=
  let s := Text.trim isEdge s
  let signs := (s.reverse.takeWhile (· == '#')).length
  let before := s.take (s.length - signs)
  if signs = 0 then s
  else if before.isEmpty then []
  else if (before.getLast?.map Text.isBlank).getD false then Text.trimRight isEdge before
  else s

def heading? (body : List Char) : Option BlockStart :=
  let level := (body.takeWhile (· == '#')).length
  let rest := body.drop level
  if level = 0 ∨ 6 < level then none
  else if rest.isEmpty || (rest.head?.map Text.isBlank).getD false then
    some (heading level (withoutClosing rest))
  else none

/-- The line holds only the same sign, three times or more, and blanks. -/
def isThematicBreak (body : List Char) : Bool :=
  let signs := body.filter (!Text.isBlank ·)
  match signs with
  | c :: _ => (c == '*' || c == '-' || c == '_') && signs.all (· == c) && 3 ≤ signs.length
  | [] => false

def openingSigns (body : List Char) : Option (Char × Nat) :=
  match body with
  | c :: _ =>
    let length := (body.takeWhile (· == c)).length
    if (c == '\x60' || c == '~') && 3 ≤ length then some (c, length) else none
  | [] => none

/-- An opening fence. The info text after backticks holds none. -/
def fence? (indent : Nat) (body : List Char) : Option Fence := do
  let (sign, length) ← openingSigns body
  let info := body.drop length
  if sign == '\x60' && info.contains '\x60' then none
  some ⟨sign, length, indent, Url.unescape (Text.trim isEdge info)⟩

def closesFence (f : Fence) (c : Cursor) : Bool :=
  let length := (c.body.takeWhile (· == f.sign)).length
  c.indent ≤ 3 && f.length ≤ length && (c.body.drop length).all Text.isBlank

def listSign? (body : List Char) : Option (ListSign × Nat × Nat) :=
  match body with
  | [] => none
  | c :: _ =>
    if c == '-' || c == '+' || c == '*' then some (.bullet c, 1, 1)
    else
      let digits := body.takeWhile Text.isDigit
      match body.drop digits.length with
      | d :: _ =>
        if (d == '.' || d == ')') && !digits.isEmpty && digits.length ≤ 9 then
          some (.number d, Text.digitsValue 10 digits, digits.length + 1)
        else none
      | [] => none

/-- The start of a list item. Its content begins after the blanks that follow the sign, or after
one of them where they are many. -/
def item? (c : Cursor) : Option ItemStart := do
  let start := c.skipBlanks
  let (sign, number, length) ← listSign? start.rest
  let after := start.dropChars length
  let signWidth := c.indent + length
  let gap := after.indent
  if !after.rest.isEmpty && gap = 0 then none
  if Text.isSpaces after.rest then some ⟨sign, number, signWidth, signWidth + 1, none⟩
  else
    let gap := if 5 ≤ gap then 1 else gap
    some ⟨sign, number, signWidth, signWidth + gap, some (after.advance gap)⟩

/-- Where a line is read: after a block that is complete, within a paragraph, or beside the
lines of a container that could take it in. -/
inductive Position where
  | fresh
  | paragraph
  | beside
  deriving DecidableEq, Repr

/-- What a line that is not blank starts, with `depth` containers around it. -/
def read? (depth : Nat) (position : Position) (c : Cursor) : Option BlockStart :=
  if 3 < c.indent then if position = .fresh then some indentedCode else none
  else
    let body := c.body
    match (if depth < maxDepth then quote? c else none) with
    | some rest => some (quote rest)
    | none => match heading? body with
      | some start => some start
      | none => match fence? c.indent body with
        | some f => some (fence f)
        | none => match Html.blockStart? (position != .fresh) body with
          | some ends => some (html ends)
          | none =>
            if isThematicBreak body then some thematicBreak
            else match (if depth < maxDepth then item? c else none) with
              | some start =>
                if position = .paragraph && !start.interrupts then none else some (item start)
              | none => none

/-- The level of the heading that a line makes of the paragraph above it. -/
def underline? (c : Cursor) : Option Nat :=
  let body := Text.trimRight Text.isBlank c.body
  if 3 < c.indent then none
  else match body with
    | '=' :: _ => if body.all (· == '=') then some 1 else none
    | '-' :: _ => if body.all (· == '-') then some 2 else none
    | _ => none

end BlockStart

end AdfMarkdown.Markdown
