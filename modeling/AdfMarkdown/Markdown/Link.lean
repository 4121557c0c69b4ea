import AdfMarkdown.Text.Case
import AdfMarkdown.Text.Space
import AdfMarkdown.Url

/-! # Links

Destinations, titles and labels, and the definitions that links refer to.
-/

namespace AdfMarkdown.Markdown

/-- Where a link leads, encoded, and its title. -/
structure Target where
  url : String
  title : Option String
  deriving DecidableEq, Repr

namespace Link

/-- Blanks with at most one line feed among them. -/
def skipSpacing (s : List Char) : List Char :=
  match s.dropWhile Text.isBlank with
  | '\n' :: rest => rest.dropWhile Text.isBlank
  | rest => rest

def angled? : List Char → Option (List Char × List Char)
  | [] => none
  | '>' :: s => some ([], s)
  | c :: s =>
    if c = '\\' then
      match s with
      | d :: rest =>
        if d = '\n' then none else (angled? rest).map fun r => (c :: d :: r.1, r.2)
      | [] => none
    else if c = '<' ∨ c = '\n' then none
    else (angled? s).map fun r => (c :: r.1, r.2)

def endsDestination (c : Char) : Bool :=
  c == ' ' || c == '\t' || c == '\n' || c == '\x0b' || c == '\x0c' || c == '\r'

/-- The most parentheses that may be open at once in a bare destination. -/
def maxParentheses : Nat := 20

/-- A bare destination with `depth` parentheses open, and what follows it. -/
def bare? : (depth : Nat) → List Char → Option (List Char × List Char)
  | depth, [] => if depth = 0 then some ([], []) else none
  | depth, c :: s =>
    if c = '\\' then
      match s with
      | d :: rest =>
        if Url.isPunctuation d then (bare? depth rest).map fun r => (c :: d :: r.1, r.2)
        else (bare? depth (d :: rest)).map fun r => (c :: r.1, r.2)
      | [] => if depth = 0 then some ([c], []) else none
    else if c = '(' then
      if depth < maxParentheses then (bare? (depth + 1) s).map fun r => (c :: r.1, r.2) else none
    else if c = ')' then
      if depth = 0 then some ([], c :: s)
      else (bare? (depth - 1) s).map fun r => (c :: r.1, r.2)
    else if endsDestination c || c.toNat < 32 || c.toNat = 127 then
      if depth = 0 then some ([], c :: s) else none
    else (bare? depth s).map fun r => (c :: r.1, r.2)

def destination? (s : List Char) : Option (List Char × List Char) :=
  match s with
  | '<' :: rest => angled? rest
  | s => bare? 0 s

def titleBody? (closing : Char) : List Char → Option (List Char × List Char)
  | [] => none
  | c :: s =>
    if c = closing then some ([], s)
    else if c = '\\' then
      match s with
      | d :: rest => (titleBody? closing rest).map fun r => (c :: d :: r.1, r.2)
      | [] => none
    else if c = '(' ∧ closing = ')' then none
    else (titleBody? closing s).map fun r => (c :: r.1, r.2)

def title? (s : List Char) : Option (List Char × List Char) :=
  match s with
  | '"' :: rest => titleBody? '"' rest
  | '\'' :: rest => titleBody? '\'' rest
  | '(' :: rest => titleBody? ')' rest
  | _ => none

def isGap (c : Char) : Bool := c == ' ' || c == '\t' || c == '\n'

def target (destination title : List Char) : Target :=
  let title := Url.unescape title
  ⟨String.ofList (Url.encode (Url.unescape destination)),
    if title.isEmpty then none else some (String.ofList title)⟩

/-- The destination and title of an inline link after its opening parenthesis, and what follows
the closing one. -/
def inlineTarget? (s : List Char) : Option (Target × List Char) := do
  let (destination, afterDestination) ← destination? (skipSpacing s)
  let gap := afterDestination.takeWhile isGap
  let body := afterDestination.drop gap.length
  let (title, rest) ← if gap.isEmpty then some ([], body) else
    match title? body with
    | some r => some r
    | none => some ([], body)
  match rest.dropWhile isGap with
  | ')' :: after => some (target destination title, after)
  | _ => none

/-- The most characters of a label. -/
def maxLabel : Nat := 999

def labelBody? : List Char → Option (List Char × List Char)
  | [] => none
  | ']' :: s => some ([], s)
  | c :: s =>
    if c = '[' then none
    else if c = '\\' then
      match s with
      | d :: rest => (labelBody? rest).map fun r => (c :: d :: r.1, r.2)
      | [] => none
    else (labelBody? s).map fun r => (c :: r.1, r.2)

def label? (s : List Char) : Option (List Char × List Char) :=
  match labelBody? s with
  | some (label, rest) => if label.length ≤ maxLabel then some (label, rest) else none
  | none => none

/-- The key by which a label is looked up: case and the amount of white space do not matter. -/
def labelKey (label : List Char) : String :=
  String.ofList (Text.caselessKey (Text.collapse Text.isSpace ' ' (Text.trim Text.isSpace label)))

end Link

/-- A link definition: the key of its label and where it leads. -/
structure Definition where
  key : String
  target : Target
  deriving DecidableEq, Repr

namespace Definition

/-- The rest of the line is blank; what follows it. -/
def afterLine? (s : List Char) : Option (List Char) :=
  match s.dropWhile Text.isBlank with
  | [] => some []
  | '\n' :: rest => some rest
  | _ => none

/-- The title that ends a definition, and what follows its line. -/
def titleLine? (s : List Char) : Option (List Char × List Char) := do
  let (title, rest) ← Link.title? (Link.skipSpacing s)
  return (title, ← afterLine? rest)

def read? (s : List Char) : Option (Definition × List Char) := do
  let body ← match s.dropWhile Text.isBlank with
    | '[' :: rest => some rest
    | _ => none
  let (label, afterLabel) ← Link.label? body
  let key := Link.labelKey label
  if key = "" then none
  let afterColon ← match afterLabel with
    | ':' :: rest => some rest
    | _ => none
  let written := Link.skipSpacing afterColon
  if written.isEmpty then none
  let (destination, rest) ← Link.destination? written
  if destination.isEmpty && written.head? != some '<' then none
  let titled := if (rest.head?.map Link.isGap).getD false then titleLine? rest else none
  match titled with
  | some (title, after) => some (⟨key, Link.target destination title⟩, after)
  | none =>
    let after ← afterLine? rest
    some (⟨key, Link.target destination []⟩, after)

def lookup (key : String) (definitions : List Definition) : Option Target :=
  (definitions.find? (·.key == key)).map (·.target)

end Definition

end AdfMarkdown.Markdown
