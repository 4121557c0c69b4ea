import AdfMarkdown.Text.Space

/-! # HTML

The tags, comments, instructions, declarations and sections that pass through Markdown as they
are: within a line of text, and as blocks of their own.
-/

namespace AdfMarkdown.Markdown.Html

def isLetter (c : Char) : Bool := c.isAlpha

def isNameChar (c : Char) : Bool := c.isAlphanum || c == '-'

def isTagSpace (c : Char) : Bool :=
  c == ' ' || c == '\t' || c == '\n' || c == '\x0b' || c == '\x0c' || c == '\r'

/-- The text after the first occurrence of a mark. -/
def afterFirst? (mark : List Char) : List Char → Option (List Char)
  | [] => none
  | c :: s =>
    if mark.isPrefixOf (c :: s) then some ((c :: s).drop mark.length) else afterFirst? mark s

def afterName? : List Char → Option (List Char)
  | c :: s => if isLetter c then some (s.dropWhile isNameChar) else none
  | [] => none

def afterValue? : List Char → Option (List Char)
  | '"' :: s => afterFirst? ['"'] s
  | '\'' :: s => afterFirst? ['\''] s
  | s =>
    let word := s.takeWhile fun c =>
      !(isTagSpace c || c == '"' || c == '\'' || c == '=' || c == '<' || c == '>' || c == '\x60')
    if word.isEmpty then none else some (s.drop word.length)

def afterValuePart? (s : List Char) : Option (List Char) :=
  match s.dropWhile isTagSpace with
  | '=' :: rest => afterValue? (rest.dropWhile isTagSpace)
  | _ => some s

def isAttributeStart (c : Char) : Bool := isLetter c || c == '_' || c == ':'

def isAttributeChar (c : Char) : Bool :=
  c.isAlphanum || c == '_' || c == '.' || c == ':' || c == '-'

def afterAttributes : (fuel : Nat) → List Char → List Char
  | 0, s => s
  | fuel + 1, s =>
    match s.dropWhile isTagSpace with
    | c :: rest =>
      if isAttributeStart c && (s.head?.map isTagSpace).getD false then
        match afterValuePart? (rest.dropWhile isAttributeChar) with
        | some after => afterAttributes fuel after
        | none => rest.dropWhile isAttributeChar
      else s
    | [] => s

/-- The text after an opening tag, from after its angle bracket. -/
def afterOpenTag? (s : List Char) : Option (List Char) := do
  let s ← afterName? s
  match (afterAttributes s.length s).dropWhile isTagSpace with
  | '>' :: rest => some rest
  | '/' :: '>' :: rest => some rest
  | _ => none

def afterCloseTag? (s : List Char) : Option (List Char) := do
  let s ← afterName? s
  match s.dropWhile isTagSpace with
  | '>' :: rest => some rest
  | _ => none

/-- The text after a piece of HTML within a line of text. -/
def afterInline? (s : List Char) : Option (List Char) :=
  match s with
  | '<' :: '!' :: '-' :: '-' :: '>' :: rest => some rest
  | '<' :: '!' :: '-' :: '-' :: '-' :: '>' :: rest => some rest
  | '<' :: '!' :: '-' :: '-' :: rest => afterFirst? "-->".toList rest
  | '<' :: '?' :: rest => afterFirst? "?>".toList rest
  | '<' :: '!' :: '[' :: 'C' :: 'D' :: 'A' :: 'T' :: 'A' :: '[' :: rest =>
    afterFirst? "]]>".toList rest
  | '<' :: '!' :: c :: rest => if isLetter c then afterFirst? ['>'] rest else none
  | '<' :: '/' :: rest => afterCloseTag? rest
  | '<' :: rest => afterOpenTag? rest
  | _ => none

/-- How a block of HTML ends: with the line that holds a mark, or before a blank line. -/
inductive BlockEnd where
  | closingTag
  | mark (text : List Char)
  | blankLine
  deriving DecidableEq, Repr

/-- The names of the tags whose block ends with a closing tag. -/
def rawTags : List String := ["script", "pre", "style", "textarea"]

def blockTags : List String :=
  ["address", "article", "aside", "base", "basefont", "blockquote", "body", "caption", "center",
    "col", "colgroup", "dd", "details", "dialog", "dir", "div", "dl", "dt", "fieldset",
    "figcaption", "figure", "footer", "form", "frame", "frameset", "h1", "h2", "h3", "h4", "h5",
    "h6", "head", "header", "hr", "html", "iframe", "legend", "li", "link", "main", "menu",
    "menuitem", "nav", "noframes", "ol", "optgroup", "option", "p", "param", "search", "section",
    "summary", "table", "tbody", "td", "tfoot", "th", "thead", "title", "tr", "track", "ul"]

/-- The tag name at the start of a text, in lower case, and what follows it. -/
def tagName (s : List Char) : String × List Char :=
  let name := s.takeWhile isNameChar
  (String.ofList (name.map Char.toLower), s.drop name.length)

def endsTagName (s : List Char) : Bool :=
  match s with
  | [] => true
  | c :: _ => isTagSpace c || c == '>'

/-- What follows the tag name of a block tag: as after any tag name, or the end of the tag. -/
def endsBlockName (s : List Char) : Bool :=
  match s with
  | '/' :: '>' :: _ => true
  | s => endsTagName s

/-- A whole tag of its own, with nothing but white space after it on its line. -/
def isLoneTag (s : List Char) : Bool :=
  let rest? := match s with
    | '<' :: '/' :: rest => afterCloseTag? rest
    | '<' :: rest => afterOpenTag? rest
    | _ => none
  match rest? with
  | some rest => rest.all isTagSpace
  | none => false

/-- The kind of HTML block that a line begins, if any. A lone tag of any name does not
interrupt a paragraph. -/
def blockStart? (interrupts : Bool) (s : List Char) : Option BlockEnd :=
  match s with
  | '<' :: '!' :: '-' :: '-' :: _ => some (.mark "-->".toList)
  | '<' :: '?' :: _ => some (.mark "?>".toList)
  | '<' :: '!' :: '[' :: 'C' :: 'D' :: 'A' :: 'T' :: 'A' :: '[' :: _ => some (.mark "]]>".toList)
  | '<' :: '!' :: c :: _ => if isLetter c then some (.mark ['>']) else none
  | '<' :: rest =>
    let (name, afterName) := tagName rest
    let (closedName, afterClosed) := match rest with
      | '/' :: r => tagName r
      | r => tagName r
    if rawTags.contains name && endsTagName afterName then some .closingTag
    else if blockTags.contains closedName && endsBlockName afterClosed then some .blankLine
    else if !interrupts && isLoneTag s then some .blankLine
    else none
  | _ => none

def holds (mark : List Char) (s : List Char) : Bool := (afterFirst? mark s).isSome

/-- The line ends its block, which it belongs to. -/
def BlockEnd.endsWith (e : BlockEnd) (line : List Char) : Bool :=
  match e with
  | closingTag =>
    rawTags.any fun t => holds ("</".toList ++ t.toList ++ ['>']) (line.map Char.toLower)
  | mark text => holds text line
  | blankLine => false

end AdfMarkdown.Markdown.Html
