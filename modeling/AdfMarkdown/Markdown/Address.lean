import AdfMarkdown.Markdown.Inline
import AdfMarkdown.Text.Lines
import AdfMarkdown.Text.Space

/-! # Addresses

Web and mail addresses that are links by themselves: in angle brackets, or bare in the text.
-/

namespace AdfMarkdown.Markdown.Address

def isSchemeChar (c : Char) : Bool := c.isAlphanum || c == '+' || c == '.' || c == '-'

/-- The address in angle brackets, after the opening one, that starts with a scheme. -/
def web? (s : List Char) : Option (List Char) :=
  match s with
  | c :: rest =>
    let scheme := rest.takeWhile isSchemeChar
    let afterScheme := rest.drop scheme.length
    if !c.isAlpha || scheme.isEmpty || 31 < scheme.length then none
    else match afterScheme with
      | ':' :: path =>
        let path := path.takeWhile fun d => !(d == '<' || d == '>' || d.toNat ≤ 32)
        let address := c :: (scheme ++ ':' :: path)
        if (s.drop address.length).head? == some '>' then some address else none
      | _ => none
  | [] => none

def isMailChar (c : Char) : Bool :=
  c.isAlphanum || ".!#$%&'*+/=?^_\x60\x7b|\x7d~-".toList.contains c

/-- A part of a domain name: letters, digits and inner hyphens, up to 63 characters. -/
def isDomainPart (s : List Char) : Bool :=
  !s.isEmpty && s.length ≤ 63 && s.all (fun c => c.isAlphanum || c == '-') &&
    s.head? != some '-' && s.getLast? != some '-'

def mail? (s : List Char) : Option (List Char) :=
  let user := s.takeWhile isMailChar
  match s.drop user.length with
  | '@' :: rest =>
    let domain := rest.takeWhile fun c => c.isAlphanum || c == '-' || c == '.'
    let address := user ++ '@' :: domain
    if !user.isEmpty && (Text.splitAt '.' domain).all isDomainPart &&
        (s.drop address.length).head? == some '>' then some address
    else none
  | _ => none

/-- The link of an address in angle brackets, after the opening one, and the length of the
address. -/
def angled? (s : List Char) : Option (Inline × Nat) :=
  match web? s with
  | some a => some (.address ('<' :: (a ++ ['>'])) a (Url.encode a), a.length)
  | none => match mail? s with
    | some a =>
      some (.address ('<' :: (a ++ ['>'])) a (Url.encode ("mailto:".toList ++ a)), a.length)
    | none => none

def isTrailing (c : Char) : Bool := ".,:;\"')]".toList.contains c

/-- The part of a bare address after its scheme; within brackets it ends before a closing
one. -/
def barePath? (bracketed : Bool) (s : List Char) : Option (List Char) :=
  let run := s.takeWhile fun c => !(Text.isSpace c || c == '<' || (bracketed && c == ']'))
  let path := Text.trimRight isTrailing run
  if path.length < 2 then none else some path

def bare? (bracketed : Bool) (s : List Char) : Option (List Char) :=
  match s with
  | 'h' :: 't' :: 't' :: 'p' :: ':' :: '/' :: '/' :: rest =>
    (barePath? bracketed rest).map ("http://".toList ++ ·)
  | 'h' :: 't' :: 't' :: 'p' :: 's' :: ':' :: '/' :: '/' :: rest =>
    (barePath? bracketed rest).map ("https://".toList ++ ·)
  | _ => none

end AdfMarkdown.Markdown.Address
