import AdfMarkdown.Proofs.ItemLines
import Mathlib.Logic.Function.Iterate

/-! # Quotations one inside the other

A quotation has the lines of its inside, each after a sign that can be taken off again. Quotations
one inside the other put a sign for each of them before every line, with a blank after all of them
but the last one of an empty line.
-/

namespace AdfMarkdown

/-- A line without its quotation sign and the blank after it, if there is one; nothing if there is
no sign. -/
def unquoteLine? (line : String) : Option String :=
  match line.toList with
  | '>' :: ' ' :: rest => some (String.ofList rest)
  | '>' :: rest => some (String.ofList rest)
  | _ => none

/-- A text without the quotation sign of each line; nothing if some line has none. -/
def unquote? (text : String) : Option String :=
  Text.join "\n" <$> (Text.lines text).mapM unquoteLine?

def nestedLine (k : Nat) (line : String) : String :=
  if line = "" then Text.times "> " k ++ ">" else Text.times "> " (k + 1) ++ line

theorem toList_quoteLine (line : String) :
    (quoteLine line).toList = '>' :: if line = "" then [] else ' ' :: line.toList := by
  rw [quoteLine]
  split <;> simp

theorem unquoteLine?_quoteLine (line : String) : unquoteLine? (quoteLine line) = some line := by
  rw [unquoteLine?, toList_quoteLine]
  by_cases h : line = ""
  · rw [h]
    rfl
  · rw [if_neg h]
    exact congrArg some String.ofList_toList

theorem mapM_unquoteLine? (ls : List String) : (ls.map quoteLine).mapM unquoteLine? = some ls := by
  induction ls with
  | nil => rfl
  | cons l ls ih => rw [List.map_cons, List.mapM_cons, unquoteLine?_quoteLine, ih]; rfl

theorem quote_empty : quote "" = "" := rfl

theorem lines_quote {s : String} (h : s ≠ "") :
    Text.lines (quote s) = (Text.lines s).map quoteLine := by
  rw [quote, if_neg h]
  refine Text.lines_join (by simpa using Text.lines_ne_nil s) fun l hl => ?_
  obtain ⟨l', hl', rfl⟩ := List.mem_map.mp hl
  exact feed_mem_quoteLine_iff.not.mpr (Text.not_mem_of_mem_lines hl')

theorem unquote?_quote {s : String} (h : s ≠ "") : unquote? (quote s) = some s := by
  rw [unquote?, lines_quote h, mapM_unquoteLine?]
  exact congrArg some (Text.join_lines s)

theorem quote_ne_empty {s : String} (h : s ≠ "") : quote s ≠ "" := by
  intro hempty
  have hunquoted := unquote?_quote h
  rw [hempty] at hunquoted
  cases hunquoted

theorem quoteLine_nestedLine (k : Nat) (line : String) :
    quoteLine (nestedLine k line) = nestedLine (k + 1) line := by
  have hne : nestedLine k line ≠ "" := by
    rw [nestedLine]
    split <;> simp [Text.times]
  rw [quoteLine, if_neg hne, nestedLine, nestedLine]
  split
  · rw [← String.append_assoc]; rfl
  · rw [← String.append_assoc]; rfl

theorem iterate_quote_empty (k : Nat) : quote^[k] "" = "" := Function.iterate_fixed quote_empty k

theorem iterate_quote_ne_empty {s : String} (h : s ≠ "") (k : Nat) : quote^[k] s ≠ "" := by
  induction k with
  | zero => exact h
  | succ k ih =>
    rw [Function.iterate_succ_apply']
    exact quote_ne_empty ih

theorem lines_iterate_quote {s : String} (h : s ≠ "") (k : Nat) :
    Text.lines (quote^[k + 1] s) = (Text.lines s).map (nestedLine k) := by
  induction k with
  | zero =>
    rw [Function.iterate_one, lines_quote h]
    rfl
  | succ k ih =>
    -- No line is empty from the second time on, as each has a sign by then.
    rw [Function.iterate_succ_apply', lines_quote (iterate_quote_ne_empty h _), ih, List.map_map]
    exact List.map_congr_left fun l _ => quoteLine_nestedLine k l

namespace Node

/-- The node is so many quotations, one right inside the other, with the blocks in the innermost
one. -/
inductive Quotes (blocks : List Node) : Nat → Node → Prop where
  | innermost (attrs : Fields) (text : Option String) (marks : List Mark) :
      Quotes blocks 1 (known .blockquote blocks attrs text marks)
  | around {k : Nat} {x : Node} (h : Quotes blocks k x) (attrs : Fields) (text : Option String)
      (marks : List Mark) : Quotes blocks (k + 1) (known .blockquote [x] attrs text marks)

theorem renderBlock_of_quotes {blocks : List Node} {k : Nat} {x : Node} (h : Quotes blocks k x) :
    renderBlock x =
      (fun parts => quote^[k] (Text.joinNonempty "\n\n" parts)) <$> renderBlocks blocks := by
  induction h with
  | innermost attrs text marks =>
    rw [renderBlock, bind_pure_comp]
    rfl
  | @around k x _ attrs text marks ih =>
    have hsole (s : String) : Text.joinNonempty "\n\n" [s] = s := by
      by_cases hs : s = "" <;> simp [Text.joinNonempty, hs]
    have hparts : renderBlocks [x] = (fun s => [s]) <$> renderBlock x := by
      rw [renderBlocks, renderBlocks]
      cases renderBlock x <;> rfl
    rw [renderBlock, bind_pure_comp, hparts, ih, Functor.map_map, Functor.map_map]
    simp only [hsole, Function.iterate_succ_apply']

/-- A quotation whose inside is not empty has the lines of its inside, each after a sign, and
without the signs it is the inside again. Quotations one inside the other put a sign for each of
them before every line. What renders empty stays empty. -/
theorem lines_renderBlock_quotations {blocks : List Node} {parts : List String} {s : String}
    (hparts : renderBlocks blocks = .ok parts) (hs : Text.joinNonempty "\n\n" parts = s) :
    (∀ attrs text marks, ∃ t, renderBlock (known .blockquote blocks attrs text marks) = .ok t ∧
      (s = "" → t = "") ∧
      (s ≠ "" → (Text.lines t).length = (Text.lines s).length ∧
        (∀ l ∈ Text.lines t, ∃ rest, l.toList = '>' :: rest) ∧ unquote? t = some s)) ∧
    ∀ k x, Quotes blocks (k + 1) x → ∃ t, renderBlock x = .ok t ∧
      (s = "" → t = "") ∧
      (s ≠ "" → Text.lines t = (Text.lines s).map (nestedLine k)) := by
  have hrender {k : Nat} {x : Node} (h : Quotes blocks k x) :
      renderBlock x = .ok (quote^[k] s) := by
    rw [renderBlock_of_quotes h, hparts, ← hs]
    rfl
  refine ⟨fun attrs text marks => ⟨_, hrender (.innermost attrs text marks), ?_, fun hne => ?_⟩,
    fun k x hx => ⟨_, hrender hx, ?_, fun hne => lines_iterate_quote hne k⟩⟩
  · rintro rfl
    exact iterate_quote_empty 1
  · rw [Function.iterate_one]
    refine ⟨by rw [lines_quote hne, List.length_map], fun l hl => ?_, unquote?_quote hne⟩
    rw [lines_quote hne, List.mem_map] at hl
    obtain ⟨l, -, rfl⟩ := hl
    exact ⟨_, toList_quoteLine l⟩
  · rintro rfl
    exact iterate_quote_empty (k + 1)

/-- Lines that are empty, that begin with a blank and that begin with a sign, in one quotation and
in three. -/
theorem lines_renderBlock_quotations_thrice :
    let blocks : List Node := [branch .paragraph [run "a\n\n b" []] [], branch .paragraph [] [],
      branch .paragraph [run "> c" []] []]
    let quotation (xs : List Node) : Node := branch .blockquote xs []
    renderBlocks blocks = .ok ["a\n\n b", "", "> c"] ∧
      Text.joinNonempty "\n\n" ["a\n\n b", "", "> c"] = "a\n\n b\n\n> c" ∧
      (∃ t, renderBlock (quotation blocks) = .ok t ∧ (Text.lines t).length = 5 ∧
        unquote? t = some "a\n\n b\n\n> c") ∧
      ∃ t, renderBlock (quotation [quotation [quotation blocks]]) = .ok t ∧
        Text.lines t = ["> > > a", "> > >", "> > >  b", "> > >", "> > > > c"] := by
  intro blocks quotation
  have hparts : renderBlocks blocks = .ok ["a\n\n b", "", "> c"] := rfl
  have hs : Text.joinNonempty "\n\n" ["a\n\n b", "", "> c"] = "a\n\n b\n\n> c" := rfl
  have hne : "a\n\n b\n\n> c" ≠ "" := by decide
  have hthrice : Quotes blocks (2 + 1) (quotation [quotation [quotation blocks]]) :=
    .around (.around (.innermost [] none []) [] none []) [] none []
  obtain ⟨hquote, hnested⟩ := lines_renderBlock_quotations hparts hs
  obtain ⟨t, ht, -, hlines⟩ := hquote [] none []
  obtain ⟨u, hu, -, hdeep⟩ := hnested 2 _ hthrice
  obtain ⟨hlength, -, hback⟩ := hlines hne
  exact ⟨hparts, hs, ⟨t, ht, hlength, hback⟩, u, hu, hdeep hne⟩

end Node

end AdfMarkdown
