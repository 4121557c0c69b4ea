import AdfMarkdown.LinkDestination
import AdfMarkdown.Text.Space
import AdfMarkdown.Token.Basic

/-! # Canonical tokens

Tokens under the names that documents are made from. Blank lines go, code blocks keep their
code and language, and links get their destination as it was written.
-/

namespace AdfMarkdown.Token

/-- The canonical name of a token. A name that has no other one stays. -/
def canonicalName (name : String) : String :=
  match name with
  | "" => "unknown"
  | "task_list_item" => "list_item"
  | "block_html" => "html_block"
  | "block_text" => "paragraph"
  | "inline_html" => "html_inline"
  | name => name

/-- A token of the canonical name has a raw text and no children. -/
def isRawName (name : String) : Bool :=
  name == "text" || name == "codespan" || name == "html_block" || name == "html_inline"

def codeText (raw : String) : String :=
  match raw.toList.reverse with
  | '\n' :: rest => String.ofList rest.reverse
  | _ => raw

def infoLanguage (attrs : Option Fields) : Option Fields :=
  let info := ((Fields.get? "info" (attrs.getD [])).bind Json.text?).getD ""
  let word := Text.firstWord info.toList
  if word.isEmpty then none else some [("language", .text (String.ofList word))]

/-- The name of a code block. An indented one has a name of its own. -/
def codeName (style : Option String) : String :=
  if style = some "indent" then "indented_code" else "block_code"

def canonicalCode (raw style : Option String) (attrs : Option Fields) : Token :=
  mk (codeName style) (some (codeText (raw.getD ""))) none (infoLanguage attrs) none

/-- The text of the only child, if that is a text token. -/
def soleText? : Option (List Token) → Option String
  | some [mk name raw _ _ _] => if name = "text" then some (raw.getD "") else none
  | _ => none

/-- The destination of a link as it was written: from the table, or else the only text in the link
where that is its own address, or else the encoded one. -/
def writtenUrl [Url.Coding] (table : LinkDestination.Table) (url : String) (sole : Option String) :
    String :=
  match LinkDestination.Table.get? url table with
  | some written => written
  | none => match sole with
    | some text =>
      (([text, "mailto:" ++ text].find? fun s => Url.Coding.encodeText s == url)).getD url
    | none => url

def writtenTarget [Url.Coding] (table : LinkDestination.Table) (attrs : Fields)
    (sole : Option String) : Json :=
  match (Fields.get? "url" attrs).getD (.text "") with
  | .text url => .text (writtenUrl table url sole)
  | v => v

/-- The attributes of a canonical token: none if there are none, and always a destination on a
link. -/
def canonicalAttrs [Url.Coding] (table : LinkDestination.Table) (name : String)
    (attrs : Option Fields) (children : Option (List Token)) : Option Fields :=
  if name = "link" then
    some (Fields.put "url" (writtenTarget table (attrs.getD []) (soleText? children))
      (attrs.getD []))
  else if (attrs.getD []).isEmpty then none else attrs

mutual

/-- The canonical token, if it is kept. -/
def canonical? [Url.Coding] (table : LinkDestination.Table) : Token → Option Token
  | mk name raw style attrs children =>
    if name = "blank_line" then none
    else if name = "block_code" then some (canonicalCode raw style attrs)
    else
      let canonical := canonicalName name
      if isRawName canonical then some (leaf canonical (raw.getD ""))
      else
        some (mk canonical none none (canonicalAttrs table canonical attrs children)
          (canonicalChildren table children))

def canonicalChildren [Url.Coding] (table : LinkDestination.Table) :
    Option (List Token) → Option (List Token)
  | none => none
  | some [] => none
  | some (t :: ts) => some (canonicalList table (t :: ts))

def canonicalList [Url.Coding] (table : LinkDestination.Table) : List Token → List Token
  | [] => []
  | t :: ts => match canonical? table t with
    | some c => c :: canonicalList table ts
    | none => canonicalList table ts

end

end AdfMarkdown.Token
