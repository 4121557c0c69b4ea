import AdfMarkdown.Markdown.Reader
import AdfMarkdown.Proofs.Prose.Basic
import Mathlib.Data.List.Infix

/-! # Legible prose

Text is printed without escapes, and so it may be read as something else. Prose is legible where
that cannot happen: every character stands for itself between its neighbours, signs have the
neighbours that they need, lines start nothing but text, and lists next to each other differ in
kind.
-/

namespace AdfMarkdown.Prose

open Markdown

/-! ## Text within a line -/

def next (s : List Char) : Char := s.head?.getD '\n'

/-- The character `c` stands for itself between the one before it and the text after it. -/
def isLiteral (before c : Char) (after : List Char) : Bool :=
  match c with
  | '\\' => next after != '\n' && !Url.isPunctuation (next after)
  | '\x60' => false
  | '<' => Text.isSpace (next after)
  | ']' => next after != '('
  | '~' => next after != '~'
  | '!' => next after != '['
  | ' ' => (after.dropWhile (· == ' ')).head? != some '\n'
  | '\n' => !Text.isSpace (next after)
  | 'h' => !("ttp://".toList.isPrefixOf after || "ttps://".toList.isPrefixOf after)
  | '*' | '_' =>
    let run := DelimiterRun.between before c 1 (next after)
    next after != c && !run.opens && !run.closes
  | _ => true

def isVerbatim (before : Char) : (s after : List Char) → Bool
  | [], _ => true
  | c :: s, after => isLiteral before c (s ++ after) && isVerbatim c s after

/-- Asterisks on both sides of a text are read as emphasis, and all of the text stands for
itself. -/
def isEmphasis (before : Char) (signs text after : List Char) : Bool :=
  text.head? != some '*' && after.head? != some '*' &&
    (DelimiterRun.between before '*' signs.length (next text)).opens &&
    (DelimiterRun.between (text.getLast?.getD '*') '*' signs.length (next after)).closes &&
    isVerbatim '*' text (signs ++ after)

def Style.isLegible (style : Style) (before : Char) (text after : List Char) : Bool :=
  match style with
  | plain => isVerbatim before text after
  | code => !text.contains '\x60' && CodeSpan.content text == text && after.head? != some '\x60'
  | strong | em | strongInEm => isEmphasis before style.sign.toList text after
  | emInStrong => false

/-- What delimiters after the closing sign take for the character before them. -/
def Style.exit (style : Style) (text : List Char) : Char :=
  match style with
  | plain => text.getLast?.getD '\n'
  | code => '\ufffc'
  | _ => '*'

def isDestinationChar (c : Char) : Bool :=
  !(Text.isSpace c || c.toNat < 32 || c.toNat == 127 || "()<>[]\\".toList.contains c)

def linkEnd (href : String) : List Char := ']' :: '(' :: (href.toList ++ [')'])

namespace Run

/-- The text of a link may be an address, which is read as a link only outside of it. -/
def isLegible (before : Char) (r : Run) (after : List Char) : Bool :=
  let text := r.text.toList
  match r.link with
  | none => r.style.isLegible before text after
  | some href =>
    href.toList.all isDestinationChar &&
      (r.style == .plain && Address.bare? true text == some text ||
        (r.style == .code || !(text.contains '[' || text.contains ']')) &&
          r.style.isLegible '[' text (linkEnd href ++ after))

def exit (r : Run) : Char :=
  match r.link with
  | none => r.style.exit r.text.toList
  | some _ => '\ufffc'

end Run

def chars (rs : List Run) : List Char := rs.flatMap fun r => r.markdown.toList

def areLegible (before : Char) : List Run → Bool
  | [] => true
  | r :: rs => r.isLegible before (chars rs) && areLegible r.exit rs

/-! ## Lines -/

def endsNumber (s : List Char) : Bool :=
  match s.dropWhile Text.isDigit with
  | d :: rest => (d == '.' || d == ')') && Text.isBlank (rest.headD ' ')
  | [] => false

/-- The start of the line starts no block. -/
def opensText : List Char → Bool
  | [] => false
  | c :: s =>
    !Text.isSpace c &&
      if "#*+=".toList.contains c then
        ((s.dropWhile (· == c)).head?.map fun d => !Text.isBlank d).getD false
      else if c == '\x60' || c == '~' then !([c, c].isPrefixOf s)
      else !(">-|:<_".toList.contains c || Text.isDigit c && endsNumber s)

/-- The phrase is read as it was meant once it is known that it is text. -/
structure Phrase.Legible (p : Phrase) : Prop where
  runs : areLegible '\n' p.runs = true
  no_return : '\r' ∉ chars p.runs
  first : Text.isSpace (next (chars p.runs)) = false
  last : ∀ c ∈ (chars p.runs).getLast?, Text.isSpace c = false

/-- The phrase is read as a paragraph. -/
structure Phrase.Flows (p : Phrase) : Prop extends p.Legible where
  opens : ∀ l ∈ Text.splitAt '\n' (chars p.runs), opensText l = true
  no_definition : (chars p.runs).head? = some '[' → ¬ [']', ':'] <:+: chars p.runs

/-- The phrase is read as an item, without a box to check at its start. -/
structure Phrase.FitsItem (p : Phrase) : Prop extends p.Flows where
  no_box : Markdown.Block.taskBox? (chars p.runs ++ ['\n']) = none

/-- The phrase is read as a heading: one line, without number signs at its end. -/
structure Phrase.FitsHeading (p : Phrase) : Prop extends p.Legible where
  one_line : '\n' ∉ chars p.runs
  no_sign : (chars p.runs).getLast? ≠ some '#'

/-! ## Blocks -/

def isLanguage (s : List Char) : Bool :=
  !s.isEmpty && s.all fun c => !(Text.isSpace c || c == '\x60' || c == '\\')

def isFence (line : List Char) : Bool := "```".toList.isPrefixOf (line.dropWhile Text.isBlank)

namespace Block

/-- Two lists of one kind, which are read as one. -/
def joins : Block → Block → Bool
  | bullet .., bullet .. => true
  | ordered .., ordered .. => true
  | _, _ => false

mutual

/-- The block is read as it was meant. -/
def Legible : Block → Prop
  | paragraph p => p.Flows
  | heading _ _ _ p => p.FitsHeading
  | bullet items _ => ∀ p ∈ items, p.FitsItem
  | ordered _ items _ _ => ∀ p ∈ items, p.FitsItem
  | quote first rest =>
    first.Legible ∧ (∀ b ∈ rest.head?, first.joins b = false) ∧ EachLegible rest
  | code language text =>
    (∀ l ∈ language, isLanguage l.toList = true) ∧ '\r' ∉ text.toList ∧
      ∀ l ∈ Text.splitAt '\n' text.toList, isFence l = false

/-- Each block is read as it was meant, and as a block of its own. -/
def EachLegible : List Block → Prop
  | [] => True
  | b :: bs => b.Legible ∧ (∀ b' ∈ bs.head?, b.joins b' = false) ∧ EachLegible bs

end

mutual

/-- How many containers are inside each other in a block. -/
def height : Block → Nat
  | quote first rest => max first.height (heightOfEach rest) + 1
  | bullet .. | ordered .. => 1
  | _ => 0

def heightOfEach : List Block → Nat
  | [] => 0
  | b :: bs => max b.height (heightOfEach bs)

end

mutual

def destinations : Block → List String
  | paragraph p | heading _ _ _ p => p.runs.filterMap Run.link
  | bullet items _ | ordered _ items _ _ => items.flatMap fun p => p.runs.filterMap Run.link
  | quote first rest => first.destinations ++ destinationsOfEach rest
  | code .. => []

def destinationsOfEach : List Block → List String
  | [] => []
  | b :: bs => b.destinations ++ destinationsOfEach bs

end

end Block

/-- Blocks are read as they were meant. Destinations are looked up by their encoded form, so that
form tells them apart, and there are no other signs of a link than those around them. -/
structure Legible (blocks : List Block) : Prop where
  each : Block.EachLegible blocks
  shallow : Block.heightOfEach blocks ≤ BlockStart.maxDepth
  apart : ∀ d ∈ Block.destinationsOfEach blocks, ∀ d' ∈ Block.destinationsOfEach blocks,
    Url.encodeText d = Url.encodeText d' → d = d'
  linked : Block.destinationsOfEach blocks ≠ [] → ∀ s ∈ (markdown blocks).toList.tails,
    [']', '('] <+: s → ∃ d ∈ Block.destinationsOfEach blocks, linkEnd d <+: s

/-! ## Decisions -/

namespace Phrase

instance (p : Phrase) : Decidable p.Legible :=
  decidable_of_iff (areLegible '\n' p.runs = true ∧ '\r' ∉ chars p.runs ∧
    Text.isSpace (next (chars p.runs)) = false ∧
      (chars p.runs).getLast?.all (!Text.isSpace ·) = true)
    ⟨fun ⟨hruns, hreturn, hfirst, hlast⟩ => ⟨hruns, hreturn, hfirst, fun c hc => by
        rw [Option.mem_def.mp hc] at hlast
        simpa using hlast⟩,
      fun h => ⟨h.runs, h.no_return, h.first, by
        cases hc : (chars p.runs).getLast? with
        | none => rfl
        | some c => simpa using h.last c hc⟩⟩

instance (p : Phrase) : Decidable p.Flows :=
  decidable_of_iff (p.Legible ∧ (Text.splitAt '\n' (chars p.runs)).all opensText = true ∧
    ((chars p.runs).head? = some '[' → ¬ [']', ':'] <:+: chars p.runs))
    ⟨fun ⟨hlegible, hopens, hdefinition⟩ => ⟨hlegible, List.all_eq_true.mp hopens, hdefinition⟩,
      fun h => ⟨h.toLegible, List.all_eq_true.mpr h.opens, h.no_definition⟩⟩

instance (p : Phrase) : Decidable p.FitsItem :=
  decidable_of_iff (p.Flows ∧ Markdown.Block.taskBox? (chars p.runs ++ ['\n']) = none)
    ⟨fun ⟨hflows, hbox⟩ => ⟨hflows, hbox⟩, fun h => ⟨h.toFlows, h.no_box⟩⟩

instance (p : Phrase) : Decidable p.FitsHeading :=
  decidable_of_iff (p.Legible ∧ '\n' ∉ chars p.runs ∧ (chars p.runs).getLast? ≠ some '#')
    ⟨fun ⟨hlegible, hone, hsign⟩ => ⟨hlegible, hone, hsign⟩,
      fun h => ⟨h.toLegible, h.one_line, h.no_sign⟩⟩

end Phrase

namespace Block

mutual

def decidableLegible : ∀ b : Block, Decidable b.Legible
  | paragraph p => inferInstanceAs (Decidable p.Flows)
  | heading _ _ _ p => inferInstanceAs (Decidable p.FitsHeading)
  | bullet items _ => inferInstanceAs (Decidable (∀ p ∈ items, p.FitsItem))
  | ordered _ items _ _ => inferInstanceAs (Decidable (∀ p ∈ items, p.FitsItem))
  | quote first rest =>
    have := decidableLegible first
    have := decidableEachLegible rest
    inferInstanceAs (Decidable (first.Legible ∧ (∀ b ∈ rest.head?, first.joins b = false) ∧
      EachLegible rest))
  | code language text =>
    inferInstanceAs (Decidable ((∀ l ∈ language, isLanguage l.toList = true) ∧
      '\r' ∉ text.toList ∧ ∀ l ∈ Text.splitAt '\n' text.toList, isFence l = false))

def decidableEachLegible : ∀ bs : List Block, Decidable (EachLegible bs)
  | [] => inferInstanceAs (Decidable True)
  | b :: bs =>
    have := decidableLegible b
    have := decidableEachLegible bs
    inferInstanceAs (Decidable (b.Legible ∧ (∀ b' ∈ bs.head?, b.joins b' = false) ∧
      EachLegible bs))

end

end Block

instance (blocks : List Block) : Decidable (Legible blocks) :=
  have := Block.decidableEachLegible blocks
  decidable_of_iff (Block.EachLegible blocks ∧ Block.heightOfEach blocks ≤ BlockStart.maxDepth ∧
    (∀ d ∈ Block.destinationsOfEach blocks, ∀ d' ∈ Block.destinationsOfEach blocks,
      Url.encodeText d = Url.encodeText d' → d = d') ∧
    (Block.destinationsOfEach blocks ≠ [] → ∀ s ∈ (markdown blocks).toList.tails,
      [']', '('] <+: s → ∃ d ∈ Block.destinationsOfEach blocks, linkEnd d <+: s))
    ⟨fun ⟨heach, hshallow, hapart, hlinked⟩ => ⟨heach, hshallow, hapart, hlinked⟩,
      fun h => ⟨h.each, h.shallow, h.apart, h.linked⟩⟩

end AdfMarkdown.Prose
