import AdfMarkdown.Markdown.Block
import AdfMarkdown.Text.Lines

/-! # Tables

A header, a row of delimiters with as many cells, and the rows that follow. In the piped form
every row has a bar at both ends.
-/

namespace AdfMarkdown.Markdown.Table

def cells : (escaped : Bool) → List Char → List (List Char)
  | _, [] => [[]]
  | escaped, c :: s =>
    if c = '|' ∧ ¬ escaped then [] :: cells false s
    else match cells (c == '\\' && !escaped) s with
      | [] => [[c]]
      | cell :: rest => (c :: cell) :: rest

def row (s : List Char) : List (List Char) :=
  (cells false (Text.trim Text.isSpace s)).map (Text.trim Text.isSpace)

/-- The alignment that a delimiter asks for. Nothing else may stand in a row of delimiters. -/
def alignment? (cell : List Char) : Option (Option Alignment) :=
  if cell.isEmpty then some none
  else
    let left := cell.head? == some ':'
    let right := cell.getLast? == some ':' && (!left || 1 < cell.length)
    let dashes := (cell.drop (if left then 1 else 0)).take
      (cell.length - (if left then 1 else 0) - (if right then 1 else 0))
    if dashes.isEmpty || !dashes.all (· == '-') then none
    else some (match left, right with
      | true, true => some .center
      | true, false => some .left
      | false, true => some .right
      | false, false => none)

def unindented (s : List Char) : List Char :=
  s.drop (min 3 (s.takeWhile (· == ' ')).length)

def pipedRow? (s : List Char) : Option (List Char) :=
  match unindented s, (Text.trimRight Text.isBlank s).getLast? with
  | '|' :: rest, some '|' =>
    let body := Text.trimRight Text.isBlank rest
    if body.isEmpty then none else some body.dropLast
  | _, _ => none

def openRow? (s : List Char) : Option (List Char) :=
  if s.contains '|' then some s else none

/-- A header line without bars at its ends, which is indented by at most three blanks. -/
def openHeader? (s : List Char) : Option (List Char) :=
  match unindented s with
  | c :: _ => if Text.isSpace c then none else openRow? s
  | [] => none

def openDelimiters? (s : List Char) : Option (List Char) :=
  match unindented s with
  | c :: _ => if c == '-' || c == ':' then openRow? s else none
  | [] => none

/-- The texts of the lines up to the first that is no row. -/
def rowsOf (rowText? : List Char → Option (List Char)) : List (List Char) → List (List Char)
  | [] => []
  | s :: rest => match rowText? s with
    | some r => r :: rowsOf rowText? rest
    | none => []

/-- A table of a header, a row of delimiters and further lines, and how many lines it takes. -/
def build? (header delimiters : List Char) (rowTexts : List (List Char)) :
    Option (Block × Nat) := do
  let head := row header
  let alignments ← (row delimiters).mapM alignment?
  if alignments.length ≠ head.length then none
  let rows := rowTexts.map row
  if rows.any (·.length ≠ head.length) then none
  some (.table alignments head rows, rows.length + 2)

def read? : List (List Char) → Option (Block × Nat)
  | first :: second :: rest =>
    match pipedRow? first, pipedRow? second with
    | some header, some delimiters =>
      build? header delimiters (rowsOf pipedRow? rest)
    | _, _ => do
      let header ← openHeader? first
      let delimiters ← openDelimiters? second
      build? header delimiters (rowsOf openRow? rest)
  | _ => none

end AdfMarkdown.Markdown.Table
