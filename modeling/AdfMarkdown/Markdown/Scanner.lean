import AdfMarkdown.Markdown.Address
import AdfMarkdown.Markdown.Emphasis
import AdfMarkdown.Markdown.Extension
import AdfMarkdown.Markdown.Html

/-! # Lines of text

Inline content is read from left to right into pieces. A closing bracket looks back for its
opening one; delimiters are paired when the text or the inside of a link is complete.
-/

namespace AdfMarkdown.Markdown

/-- What the meaning of a text depends on. -/
structure InlineContext where
  extensions : Extensions
  definitions : List Definition

/-- The pieces read so far, last first, and whether an HTML anchor is open. -/
structure Scan where
  pieces : List Piece
  inAnchor : Bool

namespace Scan

def push (x : Inline) (st : Scan) : Scan := { st with pieces := .inline x :: st.pieces }

/-- Add an escaped character, to the escaped ones right before it. -/
def pushEscaped (c : Char) (st : Scan) : Scan :=
  match st.pieces with
  | .inline (.escaped s) :: rest => { st with pieces := .inline (.escaped (s ++ [c])) :: rest }
  | _ => st.push (.escaped [c])

def bracketed (st : Scan) : Bool :=
  st.pieces.any fun
    | .bracket _ => true
    | _ => false

/-- The character before the cursor: a line feed at the start and after a line break, and a
placeholder after anything that is no text. -/
def before (st : Scan) : Char :=
  match st.pieces with
  | [] => '\n'
  | .inline (.text s) :: _ => s.getLast?.getD '\n'
  | .inline (.escaped s) :: _ => s.getLast?.getD '\n'
  | .inline .softBreak :: _ => '\n'
  | .inline .hardBreak :: _ => '\n'
  | .run r :: _ => r.sign
  | .bracket _ :: _ => '['
  | _ => '\ufffc'

end Scan

/-- The content with the delimiters of all pieces paired. -/
def Scan.finish (st : Scan) : List Inline := Emphasis.resolve st.pieces.reverse

namespace InlineContext

def bareAddress? (ctx : InlineContext) (st : Scan) (s : List Char) : Option (List Char) :=
  if ctx.extensions.bareUrls then Address.bare? st.bracketed s else none

def following (ctx : InlineContext) (st : Scan) (s : List Char) : Char :=
  match s with
  | [] => '\n'
  | '\\' :: '\n' :: _ => '\n'
  | c :: _ =>
    if !st.inAnchor && (ctx.bareAddress? st s).isSome then '\ufffc' else c

end InlineContext

namespace CodeSpan

/-- The length of the code before the next run of exactly `n` backticks; `run` backticks are
right before the cursor, which is `pos` characters on. -/
def length? (n : Nat) : (run pos : Nat) → List Char → Option Nat
  | run, pos, [] => if run = n then some (pos - n) else none
  | run, pos, c :: s =>
    if c = '\x60' then length? n (run + 1) (pos + 1) s
    else if run = n then some (pos - n)
    else length? n 0 (pos + 1) s

/-- The code between two runs: line ends are blanks, and one blank goes at either end. -/
def content (s : List Char) : List Char :=
  let s := s.map fun c => if c = '\n' then ' ' else c
  if !Text.isSpaces s && s.head? == some ' ' && s.getLast? == some ' ' then s.tail.dropLast else s

end CodeSpan

namespace Strikethrough

/-- The length of the inside before the closing signs. `before` is the character at the cursor's
left, and `odd` tells that an odd number of backslashes ends there. -/
def length? : (skip pos : Nat) → (before : Char) → (odd : Bool) → List Char → Option Nat
  | _, _, _, _, [] => none
  | skip + 1, pos, _, _, c :: s => length? skip (pos + 1) c false s
  | 0, pos, before, odd, c :: s =>
    if c = '~' then
      let n := ((c :: s).takeWhile (· == '~')).length
      if n = 2 ∧ ¬ Text.isSpace before then some pos
      else if n = 3 ∧ odd then some (pos + 1)
      else length? (n - 1) (pos + 1) c false s
    else length? 0 (pos + 1) c (c == '\\' && !odd) s

def inside? (s : List Char) : Option (List Char) :=
  match s with
  | [] => none
  | c :: _ =>
    if Text.isSpace c || c == '~' then none else (length? 0 0 ' ' false s).map s.take

end Strikethrough

namespace Scan

/-- The pieces after the last open bracket, the bracket, and the pieces before it; all last
first. -/
def splitAtBracket : List Piece → Option (List Piece × Bracket × List Piece)
  | [] => none
  | .bracket b :: rest => some ([], b, rest)
  | p :: rest => (splitAtBracket rest).map fun r => (p :: r.1, r.2)

def deactivate : Piece → Piece
  | .bracket b => .bracket (if b.image then b else { b with active := false })
  | p => p

/-- The target that follows a closing bracket, whether it has a name, and how many characters
name it. The label is the source between the brackets. -/
def target? (ctx : InlineContext) (label s : List Char) : Option (Target × Bool × Nat) :=
  let named (label : List Char) (n : Nat) :=
    (Definition.lookup (Link.labelKey label) ctx.definitions).map fun t => (t, true, n)
  let reference := match s with
    | '[' :: rest => match Link.label? rest with
      | some ([], _) => named label 2
      | some (other, _) => named other (other.length + 2)
      | none => named label 0
    | _ => named label 0
  match s with
  | '(' :: rest => match Link.inlineTarget? rest with
    | some (t, after) => some (t, false, s.length - after.length)
    | none => reference
  | _ => reference

/-- A closing bracket before `s`: the new state, and how many characters after it are taken. -/
def closeBracket (ctx : InlineContext) (st : Scan) (s : List Char) : Scan × Nat :=
  let literal := (st.push (.text [']']), 0)
  match splitAtBracket st.pieces with
  | none => literal
  | some (inside, b, outside) =>
    let opening : Piece := .inline (.text (if b.image then ['!', '['] else ['[']))
    let failed := (⟨.inline (.text [']']) :: (inside ++ opening :: outside), st.inAnchor⟩, 0)
    if !b.active then failed
    else
      let label := b.after.take (b.after.length - (s.length + 1))
      match target? ctx label s with
      | none => failed
      | some (target, named, n) =>
        let children := Emphasis.resolve inside.reverse
        if Inline.maxDepth ≤ Inline.depthOf children then failed
        else if b.image then (⟨.inline (.image target named children) :: outside, st.inAnchor⟩, n)
        else
          let children := Inline.mergeTexts (Inline.listWithoutAddresses children)
          (⟨.inline (.link target named children) :: outside.map deactivate, st.inAnchor⟩, n)

/-- The length of a line break at the start of a text: its blanks, the line feed and the white
space after it; and the number of blanks. -/
def lineBreak? (s : List Char) : Option (Nat × Nat) :=
  let blanks := (s.takeWhile (· == ' ')).length
  match s.drop blanks with
  | '\n' :: rest => some (blanks + 1 + (rest.takeWhile Text.isSpace).length, blanks)
  | _ => none

def anchorAfter (inAnchor : Bool) (html : List Char) : Bool :=
  let starts (marks : List String) := marks.any fun m => m.toList.isPrefixOf html
  if starts ["<a ", "<a>", "<A ", "<A>"] then true
  else if starts ["</a ", "</a>", "</A ", "</A>"] then false
  else inAnchor

def openAngle (st : Scan) (s : List Char) : Scan × Nat :=
  match Address.angled? s with
  | some (x, n) =>
    (st.push (if st.inAnchor then .text ('<' :: s.take (n + 1)) else x), n + 1)
  | none => match Html.afterInline? ('<' :: s) with
    | some rest =>
      let n := s.length - rest.length
      let html := '<' :: s.take n
      ({ st.push (.html html) with inAnchor := anchorAfter st.inAnchor html }, n)
    | none => (st.push (.text ['<']), 0)

def escape (st : Scan) (s : List Char) : Scan × Nat :=
  match s with
  | '\n' :: rest => (st.push .hardBreak, 1 + (rest.takeWhile Text.isSpace).length)
  | d :: _ => if Url.isPunctuation d then (st.pushEscaped d, 1) else (st.push (.text ['\\']), 0)
  | [] => (st.push (.text ['\\']), 0)

def backtick (st : Scan) (s : List Char) : Scan × Nat :=
  let n := (s.takeWhile (· == '\x60')).length
  let body := s.drop n
  match CodeSpan.length? (n + 1) 0 0 body with
  | some len => (st.push (.code (CodeSpan.content (body.take len))), n + len + (n + 1))
  | none => (st.push (.text (List.replicate (n + 1) '\x60')), n)

def delimiter (ctx : InlineContext) (st : Scan) (c : Char) (s : List Char) : Scan × Nat :=
  let n := (s.takeWhile (· == c)).length
  let after := ctx.following st (s.drop n)
  ({ st with pieces := .run (.between st.before c (n + 1) after) :: st.pieces }, n)

def tilde (ctx : InlineContext) (inside : List Char → List Inline) (st : Scan) (s : List Char) :
    Scan × Nat :=
  let literal := (st.push (.text ['~']), 0)
  match s with
  | '~' :: rest =>
    if !ctx.extensions.strikethrough then literal
    else match Strikethrough.inside? rest with
      | some t =>
        let children := inside t
        if Inline.maxDepth ≤ Inline.depthOf children then literal
        else (st.push (.strikethrough children), t.length + 3)
      | none => literal
  | _ => literal

/-- The state after the character `c`, and how many of the characters `s` after it are taken.
`inside` reads a text on its own. -/
def step (ctx : InlineContext) (inside : List Char → List Inline) (st : Scan) (c : Char)
    (s : List Char) : Scan × Nat :=
  let literal := (st.push (.text [c]), 0)
  match c with
  | '\\' => st.escape s
  | '\x60' => st.backtick s
  | '<' => st.openAngle s
  | '*' | '_' => delimiter ctx st c s
  | '~' => tilde ctx inside st s
  | '[' =>
    if st.inAnchor then literal
    else ({ st with pieces := .bracket ⟨false, true, s⟩ :: st.pieces }, 0)
  | '!' => match s with
    | '[' :: rest => ({ st with pieces := .bracket ⟨true, true, rest⟩ :: st.pieces }, 1)
    | _ => literal
  | ']' => closeBracket ctx st s
  | ' ' | '\n' => match lineBreak? (c :: s) with
    | some (n, blanks) => (st.push (if 2 ≤ blanks then .hardBreak else .softBreak), n - 1)
    | none => literal
  | 'h' => match ctx.bareAddress? st (c :: s) with
    | some a =>
      (st.push (if st.inAnchor then .text a else .address a a (Url.encode a)), a.length - 1)
    | none => literal
  | _ => literal

/-- The state after a whole text. Every character takes one step at most, and the inside of a
strikethrough is shorter than what is left of the text. -/
def run (ctx : InlineContext) : (fuel : Nat) → Scan → List Char → Scan
  | 0, st, _ => st
  | _ + 1, st, [] => st
  | fuel + 1, st, c :: s =>
    let inside (t : List Char) := (run ctx fuel ⟨[], st.inAnchor⟩ t).finish
    let (st, n) := step ctx inside st c s
    run ctx fuel st (s.drop n)

end Scan

def readInline (ctx : InlineContext) (s : List Char) : List Inline :=
  (Scan.run ctx (s.length + 1) ⟨[], false⟩ s).finish

end AdfMarkdown.Markdown
