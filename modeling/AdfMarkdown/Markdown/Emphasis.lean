import AdfMarkdown.Markdown.Inline
import AdfMarkdown.Text.Alnum
import AdfMarkdown.Text.Space

/-! # Emphasis

Runs of asterisks and underscores are paired from the inside out. The openers that wait for
their closer are kept in a stack, each with what follows it.
-/

namespace AdfMarkdown.Markdown

structure DelimiterRun where
  sign : Char
  length : Nat
  opens : Bool
  closes : Bool
  deriving DecidableEq, Repr

/-- An open bracket, for an image or a link, with the source after it. A bracket within which a
link is complete opens no link. -/
structure Bracket where
  image : Bool
  active : Bool
  after : List Char
  deriving Repr

/-- A part of a line of text before delimiters and brackets are paired. -/
inductive Piece where
  | inline (x : Inline)
  | run (r : DelimiterRun)
  | bracket (b : Bracket)
  deriving Repr

namespace DelimiterRun

def isPunctuation (c : Char) : Bool := !(Text.isSpace c || Text.isAlnum c)

/-- The run between its neighbours. An underscore does not open or close inside a word. -/
def between (before : Char) (sign : Char) (length : Nat) (after : Char) : DelimiterRun :=
  let leftFlanking := !Text.isSpace after &&
    (!isPunctuation after || Text.isSpace before || isPunctuation before)
  let rightFlanking := !Text.isSpace before &&
    (!isPunctuation before || Text.isSpace after || isPunctuation after)
  if sign == '_' then
    ⟨sign, length, leftFlanking && (!rightFlanking || isPunctuation before),
      rightFlanking && (!leftFlanking || isPunctuation after)⟩
  else ⟨sign, length, leftFlanking, rightFlanking⟩

/-- The run can open what the other closes. Runs that work both ways do not pair up when their
lengths add to a multiple of three, unless both are multiples of three. -/
def opensFor (opener closer : DelimiterRun) : Bool :=
  opener.sign == closer.sign &&
    !((opener.closes || closer.opens) && (opener.length + closer.length) % 3 == 0 &&
      closer.length % 3 != 0)

end DelimiterRun

/-- An opener with as many delimiters left as `left` tells, and what follows it, last first. -/
structure Opener where
  run : DelimiterRun
  left : Nat
  content : List Inline
  deriving Repr

namespace Emphasis

/-- The openers, innermost first, and what stands before all of them, last first. -/
structure Stack where
  openers : List Opener
  base : List Inline
  deriving Repr

def Stack.append (xs : List Inline) (s : Stack) : Stack :=
  match s.openers with
  | [] => { s with base := xs ++ s.base }
  | o :: rest => { s with openers := { o with content := xs ++ o.content } :: rest }

def signs (sign : Char) (n : Nat) : Inline := .text (List.replicate n sign)

/-- The innermost openers, `n` of them, turned into text. -/
def Stack.flatten : (n : Nat) → Stack → Stack
  | 0, s => s
  | n + 1, s =>
    match s.openers with
    | [] => s
    | o :: rest =>
      Stack.flatten n (Stack.append (o.content ++ [signs o.run.sign o.left]) ⟨rest, s.base⟩)

/-- Close as much as `left` delimiters of a run can close; how many are left then. -/
def closeRun (closer : DelimiterRun) : (fuel left : Nat) → Stack → Nat × Stack
  | 0, left, s => (left, s)
  | fuel + 1, left, s =>
    match s.openers.findIdx? (·.run.opensFor closer) with
    | none => (left, s)
    | some i =>
      let inner := s.flatten i
      match inner.openers with
      | [] => (left, s)
      | o :: rest =>
        if Inline.maxDepth ≤ Inline.depthOf o.content then (left, s)
        else
          let double := 2 ≤ o.left && 2 ≤ left
          let n := if double then 2 else 1
          let children := Inline.mergeTexts o.content.reverse
          let x := if double then Inline.strong children else .emphasis children
          let s := if o.left ≤ n then Stack.append [x] ⟨rest, s.base⟩
            else ⟨{ o with left := o.left - n, content := [x] } :: rest, s.base⟩
          if left ≤ n then (0, s) else closeRun closer fuel (left - n) s

def step (s : Stack) : Piece → Stack
  | .inline x => s.append [x]
  | .bracket b => s.append [.text (if b.image then ['!', '['] else ['['])]
  | .run r =>
    let (left, s) := if r.closes then closeRun r r.length r.length s else (r.length, s)
    if left = 0 then s
    else if r.opens then ⟨⟨r, left, []⟩ :: s.openers, s.base⟩
    else s.append [signs r.sign left]

def resolve (pieces : List Piece) : List Inline :=
  let s := pieces.foldl step ⟨[], []⟩
  Inline.mergeTexts (s.flatten s.openers.length).base.reverse

end Emphasis

end AdfMarkdown.Markdown
