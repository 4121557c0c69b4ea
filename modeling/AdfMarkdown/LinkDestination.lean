import AdfMarkdown.Text.Space
import AdfMarkdown.Url

/-! # Written link destinations

The destinations of inline links and of link definitions, found in the text as it is given. A
table from the encoded form to the written one gives each link its own spelling back.
-/

namespace AdfMarkdown.LinkDestination

/-- The length of the blanks before a destination: at most one line feed among them. -/
def spacing (s : List Char) : Nat :=
  let before := s.takeWhile Text.isBlank
  match s.drop before.length with
  | '\n' :: rest => before.length + 1 + (rest.takeWhile Text.isBlank).length
  | _ => before.length

/-- The inside of angle brackets after the opening one, and what follows the closing one. -/
def angled? : List Char → Option (List Char × List Char)
  | [] => none
  | '>' :: s => some ([], s)
  | c :: s =>
    if c = '\\' then
      match s with
      | d :: rest =>
        if d = '\n' then none else (angled? rest).map fun r => (c :: d :: r.1, r.2)
      | [] => none
    else if c = '<' ∨ c = '\n' then none
    else (angled? s).map fun r => (c :: r.1, r.2)

def isPlain (c : Char) : Bool := !(Text.isSpace c || c == '(' || c == ')' || c == '\\')

/-- The length of a group in parentheses after the opening one, with the closing one. -/
def groupLength? : List Char → Option Nat
  | [] => none
  | c :: s =>
    if c = ')' then some 1
    else if c = '\\' then
      match s with
      | d :: rest => if d = '\n' then none else (groupLength? rest).map (· + 2)
      | [] => none
    else if isPlain c then (groupLength? s).map (· + 1)
    else none

def bareLength : (skip : Nat) → List Char → Nat
  | _, [] => 0
  | skip + 1, _ :: s => bareLength skip s + 1
  | 0, c :: s =>
    if c = '\\' then
      match s with
      | d :: _ => if d = '\n' then 0 else bareLength 1 s + 1
      | [] => 0
    else if c = '(' then
      match groupLength? s with
      | some n => bareLength n s + 1
      | none => 0
    else if isPlain c then bareLength 0 s + 1
    else 0

/-- The destination after the spacing, in angle brackets or else as long as `bare` tells, and
the number of characters that spacing and destination take. -/
def destination? (bare : List Char → Nat) (s : List Char) : Option (List Char × Nat) :=
  let gap := spacing s
  let body := s.drop gap
  let plain : Option (List Char × Nat) :=
    if bare body = 0 then none else some (body.take (bare body), gap + bare body)
  match body with
  | '<' :: rest => match angled? rest with
    | some (inside, _) => some (inside, gap + inside.length + 2)
    | none => plain
  | _ => plain

/-- The destinations of inline links; `skip` characters belong to the link just read. -/
def inlineFrom : (skip : Nat) → List Char → List (List Char)
  | _, [] => []
  | skip + 1, _ :: s => inlineFrom skip s
  | 0, c :: s =>
    if c = ']' then
      match s with
      | '(' :: rest => match destination? (bareLength 0) rest with
        | some (written, n) => written :: inlineFrom (n + 1) s
        | none => inlineFrom 0 s
      | _ => inlineFrom 0 s
    else inlineFrom 0 s

def wordLength (s : List Char) : Nat := (s.takeWhile (!Text.isSpace ·)).length

/-- What follows the label and the colon of a definition at the start of a line, and the number
of characters before it. -/
def definitionLabel? (s : List Char) : Option (List Char × Nat) :=
  let indent := min 3 (s.takeWhile (· == ' ')).length
  match s.drop indent with
  | '[' :: rest =>
    let label := rest.takeWhile fun c => c != ']' && c != '\n'
    match label.isEmpty, rest.drop label.length with
    | false, ']' :: ':' :: body => some (body, indent + label.length + 3)
    | _, _ => none
  | _ => none

def definition? (s : List Char) : Option (List Char × Nat) := do
  let (body, before) ← definitionLabel? s
  let (written, n) ← destination? wordLength body
  return (written, before + n)

def definitionsFrom : (lineStart : Bool) → (skip : Nat) → List Char → List (List Char)
  | _, _, [] => []
  | _, skip + 1, c :: s => definitionsFrom (c == '\n') skip s
  | lineStart, 0, c :: s =>
    match (if lineStart then definition? (c :: s) else none) with
    | some (written, n) => written :: definitionsFrom false (n - 1) s
    | none => definitionsFrom (c == '\n') 0 s

/-- The encoded form of each destination with the written one. -/
abbrev Table := List (String × String)

def Table.get? (encoded : String) (table : Table) : Option String := table.lookup encoded

/-- Add a destination at the end unless its encoded form is there already. -/
def Table.add [Url.Coding] (table : Table) (written : List Char) : Table :=
  let dest := Url.Coding.unescape written
  let key := String.ofList (Url.Coding.encode dest)
  if (Table.get? key table).isSome then table else table ++ [(key, String.ofList dest)]

/-- The destinations in a text, those of inline links first. -/
def table [Url.Coding] (markdown : String) : Table :=
  let s := markdown.toList
  (inlineFrom 0 s ++ definitionsFrom true 0 s).foldl Table.add []

end AdfMarkdown.LinkDestination
