import AdfMarkdown.Text.Lines

/-! # Lines cut and joined

Cutting and joining are those of the library on lists and strings, so cutting a text into lines
and joining lines that have no line feed undo each other.
-/

namespace AdfMarkdown.Text

theorem splitAt_eq_splitOn (sep : Char) (s : List Char) : splitAt sep s = s.splitOn sep := by
  induction s with
  | nil => rfl
  | cons c s ih =>
    rw [splitAt, ih, List.splitOn_cons_eq_if_modifyHead]
    by_cases h : c = sep
    · simp [h]
    · cases hs : s.splitOn sep with
      | nil => exact absurd hs (List.splitOn_ne_nil sep s)
      | cons piece rest => simp [h]

theorem join_eq_intercalate (sep : String) (parts : List String) :
    join sep parts = sep.intercalate parts := by
  induction parts with
  | nil => simp
  | cons s rest ih =>
    cases rest with
    | nil => simp
    | cons t rest => rw [join_cons_cons, ih, String.intercalate_cons_cons]

theorem join_append {sep : String} {xs ys : List String} (hx : xs ≠ []) (hy : ys ≠ []) :
    join sep (xs ++ ys) = join sep xs ++ sep ++ join sep ys := by
  simp only [join_eq_intercalate]
  exact String.intercalate_append_of_ne_nil hx hy

theorem join_lines (s : String) : join "\n" (lines s) = s := by
  rw [← String.toList_inj, join_eq_intercalate, String.toList_intercalate, lines, List.map_map]
  have hmap : String.toList ∘ String.ofList = id := by
    funext cs
    exact String.toList_ofList
  rw [hmap, List.map_id, splitAt_eq_splitOn]
  exact List.intercalate_splitOn '\n'

theorem lines_join {ls : List String} (hls : ls ≠ []) (h : ∀ l ∈ ls, '\n' ∉ l.toList) :
    lines (join "\n" ls) = ls := by
  have hsplit : (['\n'].intercalate (ls.map String.toList)).splitOn '\n' = ls.map String.toList :=
    List.splitOn_intercalate '\n' (by simpa using h) (by simpa using hls)
  rw [lines, join_eq_intercalate, String.toList_intercalate, splitAt_eq_splitOn]
  rw [show "\n".toList = ['\n'] from rfl, hsplit, List.map_map]
  have hmap : String.ofList ∘ String.toList = id := by
    funext s
    exact String.ofList_toList
  rw [hmap, List.map_id]

theorem flatMap_splitAt (sep : Char) (s : List Char) :
    ((splitAt sep s).flatMap fun piece => piece ++ [sep]) = s ++ [sep] := by
  induction s with
  | nil => rfl
  | cons c s ih =>
    rw [splitAt]
    split
    · next hc => rw [List.flatMap_cons, ih, hc]; rfl
    · split
      · next hs => exact absurd hs (splitAt_ne_nil sep s)
      · next piece rest hs =>
        rw [hs, List.flatMap_cons] at ih
        rw [List.flatMap_cons, List.cons_append, List.cons_append, ih]
        rfl

theorem flatMap_lines (s : String) :
    ((lines s).flatMap fun l => l.toList ++ ['\n']) = s.toList ++ ['\n'] := by
  rw [lines, List.flatMap_map, ← flatMap_splitAt]
  simp only [String.toList_ofList]

theorem lines_eq_singleton {s : String} (h : '\n' ∉ s.toList) : lines s = [s] := by
  rw [lines, splitAt_eq_of_not_mem h, List.map_singleton, String.ofList_toList]

theorem lines_ne_nil (s : String) : lines s ≠ [] := by
  simpa [lines] using splitAt_ne_nil '\n' s.toList

theorem length_splitAt (sep : Char) (s : List Char) :
    (splitAt sep s).length = s.count sep + 1 := by
  induction s with
  | nil => rfl
  | cons c s ih =>
    rw [splitAt, List.count_cons]
    split
    · next hc => simp [ih, hc]
    · next hc =>
      cases hs : splitAt sep s with
      | nil => exact absurd hs (splitAt_ne_nil sep s)
      | cons piece pieces =>
        rw [hs] at ih
        simpa [hc] using ih

theorem length_lines (s : String) : (lines s).length = s.toList.count '\n' + 1 := by
  rw [lines, List.length_map, length_splitAt]

theorem not_mem_of_mem_splitAt {sep : Char} {s piece : List Char} (h : piece ∈ splitAt sep s) :
    sep ∉ piece := by
  induction s generalizing piece with
  | nil => simp_all [splitAt]
  | cons c s ih =>
    rw [splitAt] at h
    split at h
    · rcases List.mem_cons.mp h with rfl | h
      · exact List.not_mem_nil
      · exact ih h
    · next hc =>
      split at h
      · obtain rfl := List.mem_singleton.mp h
        simpa using Ne.symm hc
      · next first rest hs =>
        rcases List.mem_cons.mp h with rfl | h
        · have hfirst := ih (hs ▸ List.mem_cons_self)
          simp [hfirst, Ne.symm hc]
        · exact ih (hs ▸ List.mem_cons_of_mem _ h)

theorem splitAt_append {sep : Char} {s t piece : List Char} {pieces : List (List Char)}
    (ht : sep ∉ t) (h : splitAt sep s = piece :: pieces) :
    splitAt sep (t ++ s) = (t ++ piece) :: pieces := by
  induction t with
  | nil => exact h
  | cons c t ih =>
    rw [List.mem_cons, not_or] at ht
    rw [List.cons_append, splitAt, if_neg (Ne.symm ht.1), ih ht.2]
    rfl

theorem lines_append {s t l : String} {ls : List String} (ht : '\n' ∉ t.toList)
    (h : lines s = l :: ls) : lines (t ++ s) = (t ++ l) :: ls := by
  cases hs : splitAt '\n' s.toList with
  | nil => exact absurd hs (splitAt_ne_nil '\n' s.toList)
  | cons piece pieces =>
    rw [lines, hs, List.map_cons] at h
    obtain ⟨rfl, rfl⟩ := List.cons.inj h
    rw [lines, String.toList_append, splitAt_append ht hs, List.map_cons, String.ofList_append,
      String.ofList_toList]

theorem not_mem_of_mem_lines {s l : String} (h : l ∈ lines s) : '\n' ∉ l.toList := by
  obtain ⟨piece, hpiece, rfl⟩ := List.mem_map.mp h
  rw [String.toList_ofList]
  exact not_mem_of_mem_splitAt hpiece

theorem mem_of_mem_lines {s l : String} {c : Char} (h : l ∈ lines s) (hc : c ∈ l.toList) :
    c ∈ s.toList := by
  have hmem : c ∈ s.toList ++ ['\n'] := by
    rw [← flatMap_lines]
    exact List.mem_flatMap.mpr ⟨l, h, List.mem_append_left _ hc⟩
  rcases List.mem_append.mp hmem with hmem | hmem
  · exact hmem
  · obtain rfl := List.mem_singleton.mp hmem
    exact absurd hc (not_mem_of_mem_lines h)

theorem toList_times {s : String} {c : Char} (h : s.toList = [c]) (n : Nat) :
    (times s n).toList = List.replicate n c := by
  induction n with
  | zero => rfl
  | succ n ih => simp [times, h, ih, List.replicate_succ]

theorem join_flatMap {α : Type} {sep : String} {f : α → List String} {as : List α}
    (h : ∀ a ∈ as, f a ≠ []) :
    join sep (as.flatMap f) = join sep (as.map fun a => join sep (f a)) := by
  induction as with
  | nil => rfl
  | cons a as ih =>
    rw [List.forall_mem_cons] at h
    cases as with
    | nil => simp
    | cons b bs =>
      have hne : (b :: bs).flatMap f ≠ [] := by simp [h.2 b]
      rw [List.flatMap_cons, join_append h.1 hne, ih h.2]
      rfl

theorem intercalate_ne_nil {α : Type} (sep : List α) {l : List α} (hl : l ≠ [])
    (ls : List (List α)) : sep.intercalate (l :: ls) ≠ [] := by
  cases ls <;> simp [hl]

theorem mem_intercalate {α : Type} {a : α} {sep : List α} {ls : List (List α)}
    (h : a ∈ sep.intercalate ls) : a ∈ sep ∨ ∃ l ∈ ls, a ∈ l := by
  induction ls with
  | nil => cases h
  | cons l ls ih =>
    cases ls with
    | nil =>
      rw [List.intercalate_singleton] at h
      exact .inr ⟨l, List.mem_cons_self, h⟩
    | cons l' ls =>
      rw [List.intercalate_cons_cons, List.append_assoc, List.mem_append, List.mem_append] at h
      rcases h with h | h | h
      · exact .inr ⟨l, List.mem_cons_self, h⟩
      · exact .inl h
      · exact (ih h).imp_right fun ⟨m, hm, ha⟩ => ⟨m, List.mem_cons_of_mem l hm, ha⟩

theorem join_intercalate {groups : List (List String)} (h : ∀ g ∈ groups, g ≠ []) :
    join "\n" ([""].intercalate groups) = join "\n\n" (groups.map (join "\n")) := by
  induction groups with
  | nil => rfl
  | cons g groups ih =>
    rw [List.forall_mem_cons] at h
    cases groups with
    | nil => simp
    | cons g' groups =>
      have hrest : [""].intercalate (g' :: groups) ≠ [] :=
        intercalate_ne_nil _ (h.2 g' List.mem_cons_self) groups
      have hgap : join "\n" ([""] ++ [""].intercalate (g' :: groups)) =
          "\n" ++ join "\n" ([""].intercalate (g' :: groups)) := by
        rw [join_append (by simp) hrest, join_singleton, String.empty_append]
      have hmap : join "\n\n" ((g :: g' :: groups).map (join "\n")) =
          join "\n" g ++ ("\n" ++ "\n") ++ join "\n\n" ((g' :: groups).map (join "\n")) := rfl
      rw [List.intercalate_cons_cons, List.append_assoc, join_append h.1 (by simp), hgap, ih h.2,
        hmap]
      simp only [String.append_assoc]

theorem joinNonempty_eq_join {sep : String} {parts : List String} (h : ∀ s ∈ parts, s ≠ "") :
    joinNonempty sep parts = join sep parts := by
  rw [joinNonempty, List.filter_eq_self.mpr]
  simpa using h

theorem join_cons_ne_empty {sep s : String} (hs : s ≠ "") (rest : List String) :
    join sep (s :: rest) ≠ "" := by
  cases rest with
  | nil => exact hs
  | cons t rest => simp [join_cons_cons, hs]

end AdfMarkdown.Text
