import AdfMarkdown.Proofs.Destinations
import AdfMarkdown.Proofs.LinkTargets

/-! # The first link of a text

The table keeps the first destination of each encoded form, and those of inline links come before
those of definitions. So nothing that follows the first inline link of a text takes its destination
away.
-/

namespace AdfMarkdown.LinkDestination

section First

variable [Url.Coding]

theorem get?_table_of_inlineFrom {markdown : String} {d : List Char} {ds : List (List Char)}
    (h : inlineFrom 0 markdown.toList = d :: ds) :
    Table.get? (entry d).1 (table markdown) = some (entry d).2 := by
  rw [table, h, get?_foldl_add, List.cons_append, List.find?_cons_of_pos (by simp)]
  rfl

/-- A bare destination right after the first signs of a link in a text is in the table as it is
written, whatever follows the link. A link token with its encoded form gets it back. -/
theorem get?_table_first_link {p w d : String} (hopen : ¬ [']', '('] <:+: p.toList)
    (hgap : IsGap w.toList) (hne : d ≠ "") (hangle : d.toList.head? ≠ some '<')
    (hbare : Bare d.toList) (s : String) :
    let written := String.ofList (Url.Coding.unescape d.toList)
    let table := table (p ++ "](" ++ w ++ d ++ ")" ++ s)
    table.get? (Url.Coding.encodeText written) = some written ∧
    ∀ t : Token, t.name = "link" → t.attr? "url" = some (.text (Url.Coding.encodeText written)) →
      ∃ c, Token.canonical? table t = some c ∧ c.name = "link" ∧
        c.attr? "url" = some (.text written) := by
  intro written table
  have hscan : inlineFrom 0 (p ++ "](" ++ w ++ d ++ ")" ++ s).toList =
      d.toList :: inlineFrom 0 s.toList := by
    have hchars : (p ++ "](" ++ w ++ d ++ ")" ++ s).toList =
        p.toList ++ ']' :: '(' :: (w.toList ++ (d.toList ++ ')' :: s.toList)) := by simp
    rw [hchars, inlineFrom_append_of_open hopen]
    exact inlineFrom_link hgap (by simpa using hne) hangle hbare s.toList
  have hget : table.get? (Url.Coding.encodeText written) = some written := by
    have hentry := get?_table_of_inlineFrom hscan
    rw [Url.Coding.encodeText, String.toList_ofList]
    exact hentry
  exact ⟨hget, fun t ht hurl => Token.exists_canonical?_of_get? ht hurl hget⟩

end First

/-- An escape first, then a group with another one, after a gap with a line feed. The link and the
definition that follow have the same destination in its encoded form. -/
theorem get?_table_first_link_escaped :
    let d := "\\<(ä\\_)c"
    let table := table ("![a] [b" ++ "](" ++ "\t\n " ++ d ++ ")" ++
      "[e](%3C(%C3%A4_)c)\n[f]: %3C(%C3%A4_)c")
    let link : Token := .branchWith "link"
      [("title", .text "t"), ("url", .text "%3C(%C3%A4_)c")] [.leaf "text" "b"]
    (¬ [']', '('] <:+: "![a] [b".toList ∧ IsGap "\t\n ".toList ∧ d ≠ "" ∧
      d.toList.head? ≠ some '<' ∧ Bare d.toList) ∧
    table.get? "%3C(%C3%A4_)c" = some "<(ä_)c" ∧
    ∃ c, Token.canonical? table link = some c ∧ c.name = "link" ∧
      c.attr? "url" = some (.text "<(ä_)c") := by
  intro d table link
  have hopen : ¬ [']', '('] <:+: "![a] [b".toList := by decide
  have hgap : IsGap "\t\n ".toList := ⟨by simp [Text.isBlank], by decide⟩
  have hgroup : Enclosed ['ä', '\\', '_'] := .plain (by decide) (.escaped (by decide) .nil)
  have hrest : Bare ['c'] := .plain (by decide) .nil
  have hchars : d.toList = '\\' :: '<' :: '(' :: (['ä', '\\', '_'] ++ ')' :: ['c']) := by decide
  have hbare : Bare d.toList := hchars ▸ .escaped (by decide) (.group hgroup hrest)
  have hwritten : String.ofList (Url.Coding.unescape d.toList) = "<(ä_)c" := by decide +kernel
  have hencoded : Url.Coding.encodeText "<(ä_)c" = "%3C(%C3%A4_)c" := by decide +kernel
  have hangle : d.toList.head? ≠ some '<' := by decide
  obtain ⟨hget, htoken⟩ := get?_table_first_link hopen hgap (by decide) hangle hbare
    "[e](%3C(%C3%A4_)c)\n[f]: %3C(%C3%A4_)c"
  rw [hwritten, hencoded] at hget htoken
  exact ⟨⟨hopen, hgap, by decide, hangle, hbare⟩, hget, htoken link rfl rfl⟩

end AdfMarkdown.LinkDestination
