import AdfMarkdown.Document.Basic
import AdfMarkdown.Text.Lines
import AdfMarkdown.Token.Document
import Mathlib.Data.List.Chain
import Mathlib.Data.List.Forall2

/-! # Prose

The part of Markdown that survives the way to a document and back: phrases of styled runs in
blocks that nest to any depth. Prose is printed line by line, and it is written as tokens in many
ways, since the text of a run may be cut anywhere.
-/

namespace AdfMarkdown.Prose

/-- The styles of a run. The two ways to nest bold and italic are different styles. -/
inductive Style where
  | plain
  | strong
  | em
  | emInStrong
  | strongInEm
  | code
  deriving DecidableEq, Repr

namespace Style

def marks : Style → List Mark
  | plain => []
  | strong => [.strong]
  | em => [.em]
  | emInStrong => [.strong, .em]
  | strongInEm => [.em, .strong]
  | code => [.code]

def sign : Style → String
  | plain => ""
  | strong => "**"
  | em => "*"
  | emInStrong | strongInEm => "***"
  | code => "`"

end Style

/-- A text in one style, which may be a link to a destination. -/
structure Run where
  link : Option String
  style : Style
  text : String
  link_ne : link ≠ some ""
  text_ne : text ≠ ""

namespace Run

def marks (r : Run) : List Mark := (r.link.map Mark.link).toList ++ r.style.marks

def styled (r : Run) : String := r.style.sign ++ r.text ++ r.style.sign

def markdown (r : Run) : String :=
  match r.link with
  | none => r.styled
  | some href => "[" ++ r.styled ++ "](" ++ href ++ ")"

def node (r : Run) : Node := .run r.text r.marks

end Run

/-- Runs one after the other, at least one, with other marks than their neighbours. -/
structure Phrase where
  runs : List Run
  runs_ne : runs ≠ []
  apart : runs.IsChain fun r r' => r.marks ≠ r'.marks

namespace Phrase

def markdown (p : Phrase) : String := Text.join "" (p.runs.map Run.markdown)

def nodes (p : Phrase) : List Node := p.runs.map Run.node

def item (p : Phrase) : Node := .branch .listItem [.branch .paragraph p.nodes []] []

end Phrase

/-- A block. Lists and quotations are not empty, and the numbers of a list have at most nine
digits. -/
inductive Block where
  | paragraph (content : Phrase)
  | heading (level : Nat) (one_le : 1 ≤ level) (le_six : level ≤ 6) (content : Phrase)
  | bullet (items : List Phrase) (items_ne : items ≠ [])
  | ordered (start : Nat) (items : List Phrase) (items_ne : items ≠ [])
    (short : start + items.length ≤ 1000000000)
  | quote (first : Block) (rest : List Block)
  | code (language : Option String) (text : String)

def quotedLine (line : String) : String := if line = "" then ">" else "> " ++ line

namespace Block

mutual

/-- The lines of a block in Markdown. Blocks within a quotation have an empty line between
them. -/
def lines : Block → List String
  | paragraph p => Text.lines p.markdown
  | heading level _ _ p => Text.lines (Text.times "#" level ++ " " ++ p.markdown)
  | bullet items _ => items.flatMap fun p => Text.lines ("- " ++ p.markdown)
  | ordered start items _ _ =>
    (items.zipIdx start).flatMap fun (p, n) => Text.lines (toString n ++ ". " ++ p.markdown)
  | quote first rest => ([""].intercalate (first.lines :: linesOfEach rest)).map quotedLine
  | code language text =>
    Text.lines ("```" ++ language.getD "") ++ Text.lines text ++ ["```"]

def linesOfEach : List Block → List (List String)
  | [] => []
  | b :: bs => b.lines :: linesOfEach bs

end

mutual

def node : Block → Node
  | paragraph p => .branch .paragraph p.nodes []
  | heading level _ _ p => .branch .heading p.nodes [("level", .int level)]
  | bullet items _ => .branch .bulletList (items.map Phrase.item) []
  | ordered start items _ _ =>
    .branch .orderedList (items.map Phrase.item)
      (if start = 1 then [] else [("order", .int start)])
  | quote first rest => .branch .blockquote (first.node :: nodeOfEach rest) []
  | code language text =>
    .branch .codeBlock (if text = "" then [] else [.run text []])
      (if language.getD "" = "" then [] else [("language", .text (language.getD ""))])

def nodeOfEach : List Block → List Node
  | [] => []
  | b :: bs => b.node :: nodeOfEach bs

end

def markdown (b : Block) : String := Text.join "\n" b.lines

theorem linesOfEach_eq_map (bs : List Block) : linesOfEach bs = bs.map lines := by
  induction bs with
  | nil => simp [linesOfEach]
  | cons b bs ih => simp [linesOfEach, ih]

end Block

/-- Blocks in Markdown, with an empty line between neighbours. -/
def markdown (blocks : List Block) : String :=
  Text.join "\n" ([""].intercalate (blocks.map Block.lines))

/-! ## Prose as tokens -/

def Holds (name : String) (P : List Token → Prop) (t : Token) : Prop :=
  t.name = name ∧ P t.children

def Sole (Q : Token → Prop) (ts : List Token) : Prop := ∃ t, ts = [t] ∧ Q t

/-- Tokens for the pieces of a text, one after the other. A line feed may be a soft break. -/
inductive Spells : String → List Token → Prop where
  | nil : Spells "" []
  | text {s : String} {t : Token} {ts : List Token} (hname : t.name = "text") (hts : Spells s ts) :
    Spells (t.raw ++ s) (t :: ts)
  | softbreak {s : String} {t : Token} {ts : List Token} (hname : t.name = "softbreak")
    (hts : Spells s ts) : Spells ("\n" ++ s) (t :: ts)

theorem Spells.leaf (s : String) {rest : String} {ts : List Token} (h : Spells rest ts) :
    Spells (s ++ rest) (.leaf "text" s :: ts) := text (t := .leaf "text" s) rfl h

def Style.Written (text : String) : Style → List Token → Prop
  | plain => Spells text
  | strong => Sole (Holds "strong" (Spells text))
  | em => Sole (Holds "emphasis" (Spells text))
  | emInStrong => Sole (Holds "strong" (Sole (Holds "emphasis" (Spells text))))
  | strongInEm => Sole (Holds "emphasis" (Sole (Holds "strong" (Spells text))))
  | code => Sole fun t => t.name = "codespan" ∧ t.raw = text

def Run.Written (r : Run) : List Token → Prop :=
  match r.link with
  | none => r.style.Written r.text
  | some href => Sole fun t =>
    Holds "link" (r.style.Written r.text) t ∧ t.attr? "url" = some (.text href)

inductive RunsWritten : List Run → List Token → Prop where
  | nil : RunsWritten [] []
  | cons {r : Run} {rs : List Run} {ts us : List Token} (hr : r.Written ts)
    (hrs : RunsWritten rs us) : RunsWritten (r :: rs) (ts ++ us)

def Phrase.Written (p : Phrase) (ts : List Token) : Prop := RunsWritten p.runs ts

def Phrase.WrittenItem (p : Phrase) (t : Token) : Prop :=
  Holds "list_item" (Sole (Holds "paragraph" p.Written)) t

namespace Block

mutual

/-- A token for a block. A list that starts at one has no start. -/
def Written : Block → Token → Prop
  | paragraph p, t => Holds "paragraph" p.Written t
  | heading level _ _ p, t =>
    Holds "heading" p.Written t ∧ t.attr? "level" = some (.int level)
  | bullet items _, t =>
    Holds "list" (List.Forall₂ Phrase.WrittenItem items) t ∧ t.ordered = false
  | ordered start items _ _, t =>
    Holds "list" (List.Forall₂ Phrase.WrittenItem items) t ∧ t.ordered = true ∧
      t.attr? "start" = if start = 1 then none else some (.int start)
  | quote first rest, t =>
    t.name = "block_quote" ∧ ∃ u us, t.children = u :: us ∧ first.Written u ∧ EachWritten rest us
  | code language text, t =>
    t.name = "block_code" ∧ t.raw = text ∧ t.attr? "language" = language.map .text

def EachWritten : List Block → List Token → Prop
  | [], ts => ts = []
  | b :: bs, ts => ∃ u us, ts = u :: us ∧ b.Written u ∧ EachWritten bs us

end

end Block

end AdfMarkdown.Prose
