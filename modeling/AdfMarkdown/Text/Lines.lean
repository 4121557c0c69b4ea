/-! # Lines

Texts cut at a character and joined again. Cutting never gives an empty list, and joining the
pieces with the character gives the text back.
-/

namespace AdfMarkdown.Text

/-- The pieces between the occurrences of a character. -/
def splitAt (sep : Char) : List Char → List (List Char)
  | [] => [[]]
  | c :: s =>
    if c = sep then [] :: splitAt sep s
    else match splitAt sep s with
      | [] => [[c]]
      | piece :: rest => (c :: piece) :: rest

theorem splitAt_ne_nil (sep : Char) (s : List Char) : splitAt sep s ≠ [] := by
  cases s with
  | nil => simp [splitAt]
  | cons c s =>
    simp only [splitAt]
    split
    · simp
    · split <;> simp

/-- The lines of a text: what stands between its line feeds. -/
def lines (s : String) : List String := (splitAt '\n' s.toList).map String.ofList

def join (sep : String) : List String → String
  | [] => ""
  | [s] => s
  | s :: t :: rest => s ++ sep ++ join sep (t :: rest)

/-- The texts that are not empty, with a separator between neighbours. -/
def joinNonempty (sep : String) (parts : List String) : String :=
  join sep (parts.filter (· ≠ ""))

@[simp] theorem join_nil (sep : String) : join sep [] = "" := rfl

@[simp] theorem join_singleton (sep s : String) : join sep [s] = s := rfl

theorem join_cons_cons (sep s t : String) (rest : List String) :
    join sep (s :: t :: rest) = s ++ sep ++ join sep (t :: rest) := rfl

def times (s : String) : Nat → String
  | 0 => ""
  | n + 1 => s ++ times s n

theorem splitAt_eq_of_not_mem {sep : Char} {s : List Char} (h : sep ∉ s) :
    splitAt sep s = [s] := by
  induction s with
  | nil => rfl
  | cons c s ih =>
    simp only [List.mem_cons, not_or] at h
    simp [splitAt, ih h.2, Ne.symm h.1]

end AdfMarkdown.Text
