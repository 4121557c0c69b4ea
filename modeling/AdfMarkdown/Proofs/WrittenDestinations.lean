import AdfMarkdown.LinkDestination
import Mathlib.Data.List.Basic
import Mathlib.Data.List.Infix

/-! # How destinations are written

A bare destination is made of plain characters, escapes, and groups of these in parentheses. The
scan takes exactly such a destination from the spacing before it to the parenthesis after it, and
it finds the first link of a text where its signs first stand.
-/

namespace AdfMarkdown.LinkDestination

/-- What stands within parentheses in a bare destination: plain characters and escapes. -/
inductive Enclosed : List Char → Prop where
  | nil : Enclosed []
  | plain {c : Char} {s : List Char} : isPlain c = true → Enclosed s → Enclosed (c :: s)
  | escaped {c : Char} {s : List Char} : c ≠ '\n' → Enclosed s → Enclosed ('\\' :: c :: s)

/-- A bare destination: plain characters, escapes, and groups in parentheses. -/
inductive Bare : List Char → Prop where
  | nil : Bare []
  | plain {c : Char} {s : List Char} : isPlain c = true → Bare s → Bare (c :: s)
  | escaped {c : Char} {s : List Char} : c ≠ '\n' → Bare s → Bare ('\\' :: c :: s)
  | group {g s : List Char} : Enclosed g → Bare s → Bare ('(' :: (g ++ ')' :: s))

theorem bare_of_plain {d : List Char} (h : ∀ c ∈ d, isPlain c = true) : Bare d := by
  induction d with
  | nil => exact .nil
  | cons c d ih =>
    rw [List.forall_mem_cons] at h
    exact .plain h.1 (ih h.2)

section Characters

variable {c : Char}

theorem ne_of_isPlain (h : isPlain c = true) : c ≠ '\\' ∧ c ≠ '(' ∧ c ≠ ')' := by
  refine ⟨?_, ?_, ?_⟩ <;> rintro rfl <;> exact absurd h (by decide)

theorem not_isBlank_of_isPlain (h : isPlain c = true) : Text.isBlank c = false ∧ c ≠ '\n' := by
  constructor
  · by_contra hblank
    rw [Bool.not_eq_false, Text.isBlank, Bool.or_eq_true, beq_iff_eq, beq_iff_eq] at hblank
    rcases hblank with rfl | rfl <;> exact absurd h (by decide)
  · rintro rfl
    exact absurd h (by decide)

end Characters

theorem Bare.not_isBlank {c : Char} {s : List Char} (h : Bare (c :: s)) :
    Text.isBlank c = false ∧ c ≠ '\n' := by
  cases h with
  | plain hc _ => exact not_isBlank_of_isPlain hc
  | escaped | group => decide

section Length

theorem Enclosed.groupLength?_append {g : List Char} (h : Enclosed g) (rest : List Char) :
    groupLength? (g ++ ')' :: rest) = some (g.length + 1) := by
  induction h with
  | nil =>
    rw [List.nil_append, groupLength?.eq_def]
    exact if_pos rfl
  | @plain c s hc _ ih =>
    obtain ⟨hslash, -, hclose⟩ := ne_of_isPlain hc
    rw [List.cons_append, groupLength?.eq_def]
    dsimp only
    rw [if_neg hclose, if_neg hslash, if_pos hc, ih]
    rfl
  | @escaped c s hc _ ih =>
    rw [List.cons_append, List.cons_append, groupLength?.eq_def]
    dsimp only
    rw [if_neg (by decide), if_pos rfl, if_neg hc, ih]
    rfl

theorem bareLength_skip (s rest : List Char) :
    bareLength s.length (s ++ rest) = bareLength 0 rest + s.length := by
  induction s with
  | nil => rfl
  | cons c s ih =>
    rw [List.length_cons, List.cons_append, bareLength, ih]
    rfl

/-- A bare destination goes on to the parenthesis that closes the link. -/
theorem Bare.bareLength_append {d : List Char} (h : Bare d) (rest : List Char) :
    bareLength 0 (d ++ ')' :: rest) = d.length := by
  induction h with
  | nil => rfl
  | @plain c s hc _ ih =>
    obtain ⟨hslash, hopen, -⟩ := ne_of_isPlain hc
    rw [List.cons_append, bareLength.eq_def]
    dsimp only
    rw [if_neg hslash, if_neg hopen, if_pos hc, ih, List.length_cons]
  | @escaped c s hc _ ih =>
    rw [List.cons_append, List.cons_append, bareLength.eq_def]
    dsimp only
    rw [if_pos rfl, if_neg hc, ← List.singleton_append, ← List.length_singleton (a := c),
      bareLength_skip, ih]
    rfl
  | @group g s hg _ ih =>
    have hgroup : g ++ ')' :: s ++ ')' :: rest = (g ++ [')']) ++ (s ++ ')' :: rest) := by simp
    have hlength : groupLength? (g ++ ')' :: s ++ ')' :: rest) = some (g ++ [')']).length := by
      rw [List.append_assoc, List.cons_append, hg.groupLength?_append]
      simp
    rw [List.cons_append, bareLength.eq_def]
    dsimp only
    rw [if_neg (by decide), if_pos rfl, hlength]
    dsimp only
    rw [hgroup, bareLength_skip, ih]
    simp [Nat.add_comm, Nat.add_left_comm]

end Length

section Spacing

def IsGap (w : List Char) : Prop := (∀ c ∈ w, Text.isBlank c = true ∨ c = '\n') ∧ w.count '\n' ≤ 1

theorem isGap_nil : IsGap [] := ⟨List.forall_mem_nil _, Nat.zero_le 1⟩

theorem IsGap.cases {w : List Char} (h : IsGap w) : (∀ c ∈ w, Text.isBlank c = true) ∨
    ∃ b b', w = b ++ '\n' :: b' ∧ (∀ c ∈ b, Text.isBlank c = true) ∧
      ∀ c ∈ b', Text.isBlank c = true := by
  have hblank {b : List Char} (hb : b ⊆ w) (hfeed : '\n' ∉ b) : ∀ c ∈ b, Text.isBlank c = true := by
    intro c hc
    rcases h.1 c (hb hc) with hc' | rfl
    · exact hc'
    · exact absurd hc hfeed
  by_cases hfeed : '\n' ∈ w
  · right
    obtain ⟨b, b', rfl⟩ := List.append_of_mem hfeed
    have hcount := h.2
    rw [List.count_append, List.count_cons_self] at hcount
    refine ⟨b, b', rfl, hblank (List.subset_append_left _ _) ?_, hblank ?_ ?_⟩
    · exact List.count_eq_zero.mp (by omega)
    · exact fun c hc => List.mem_append_right b (List.mem_cons_of_mem _ hc)
    · exact List.count_eq_zero.mp (by omega)
  · exact .inl (hblank (List.Subset.refl w) hfeed)

theorem takeWhile_isBlank_append {b : List Char} (hb : ∀ c ∈ b, Text.isBlank c = true) {c : Char}
    (hc : Text.isBlank c = false) (s : List Char) :
    (b ++ c :: s).takeWhile Text.isBlank = b := by
  rw [List.takeWhile_append_of_pos hb, List.takeWhile_cons_of_neg (by simp [hc]), List.append_nil]

theorem spacing_append {w : List Char} (hw : IsGap w) {c : Char} (hblank : Text.isBlank c = false)
    (hfeed : c ≠ '\n') (s : List Char) : spacing (w ++ c :: s) = w.length := by
  unfold spacing
  rcases hw.cases with hw | ⟨b, b', rfl, hb, hb'⟩
  · rw [takeWhile_isBlank_append hw hblank]
    dsimp only
    rw [List.drop_left]
    split
    · next heq => exact absurd (List.cons.inj heq).1 hfeed
    · rfl
  · rw [List.append_assoc, List.cons_append, takeWhile_isBlank_append hb (by decide)]
    dsimp only
    rw [List.drop_left]
    show b.length + 1 + ((b' ++ c :: s).takeWhile Text.isBlank).length = _
    rw [takeWhile_isBlank_append hb' hblank, List.length_append, List.length_cons]
    omega

end Spacing

section Links

variable {w d : List Char}

theorem destination?_append (hw : IsGap w) (hne : d ≠ []) (hangle : d.head? ≠ some '<')
    (h : Bare d) (rest : List Char) :
    destination? (bareLength 0) (w ++ (d ++ ')' :: rest)) = some (d, w.length + d.length) := by
  have hlength := h.bareLength_append rest
  have hpositive : ¬ d.length = 0 := fun hzero => hne (List.length_eq_zero_iff.mp hzero)
  obtain ⟨c, e, rfl⟩ := List.exists_cons_of_ne_nil hne
  obtain ⟨hblank, hfeed⟩ := h.not_isBlank
  have hgap : spacing (w ++ (c :: e ++ ')' :: rest)) = w.length := spacing_append hw hblank hfeed _
  unfold destination?
  simp only [hgap, List.drop_left, hlength, if_neg hpositive, List.take_left]
  split
  · next heq =>
    obtain rfl := (List.cons.inj heq).1
    exact absurd rfl hangle
  · rfl

theorem inlineFrom_skip (n : Nat) : ∀ s : List Char, inlineFrom n s = inlineFrom 0 (s.drop n) := by
  induction n with
  | zero => exact fun s => rfl
  | succ n ih =>
    intro s
    cases s with
    | nil => rfl
    | cons c s => exact ih s

theorem inlineFrom_cons_of_open {c : Char} {s : List Char} (h : ¬ [']', '('] <+: c :: s) :
    inlineFrom 0 (c :: s) = inlineFrom 0 s := by
  rw [inlineFrom.eq_def]
  dsimp only
  split_ifs with hc
  · split
    · exact absurd ⟨_, by rw [hc]; rfl⟩ h
    · rfl
  · rfl

theorem inlineFrom_append_of_open {p : List Char} (h : ¬ [']', '('] <:+: p) (s : List Char) :
    inlineFrom 0 (p ++ ']' :: s) = inlineFrom 0 (']' :: s) := by
  induction p with
  | nil => rfl
  | cons c p ih =>
    rw [List.infix_cons_iff, not_or] at h
    rw [List.cons_append, inlineFrom_cons_of_open, ih h.2]
    intro hstart
    cases p with
    | nil =>
      -- The bracket that follows is no parenthesis.
      rw [List.nil_append, List.cons_prefix_cons, List.cons_prefix_cons] at hstart
      exact absurd hstart.2.1 (by decide)
    | cons e p =>
      rw [List.cons_append, List.cons_prefix_cons, List.cons_prefix_cons] at hstart
      refine h.1 ?_
      rw [List.cons_prefix_cons, List.cons_prefix_cons]
      exact ⟨hstart.1, hstart.2.1, List.nil_prefix⟩

theorem inlineFrom_link (hw : IsGap w) (hne : d ≠ []) (hangle : d.head? ≠ some '<') (h : Bare d)
    (rest : List Char) :
    inlineFrom 0 (']' :: '(' :: (w ++ (d ++ ')' :: rest))) = d :: inlineFrom 0 rest := by
  rw [inlineFrom.eq_def]
  simp only [↓reduceIte, destination?_append hw hne hangle h rest]
  rw [inlineFrom_skip, List.drop_succ_cons, ← List.append_assoc, ← List.length_append,
    List.drop_left, inlineFrom_cons_of_open (by simp)]

theorem inlineFrom_link_of_plain (hne : d ≠ []) (h : ∀ c ∈ d, isPlain c = true) (hangle : '<' ∉ d)
    (rest : List Char) :
    inlineFrom 0 (']' :: '(' :: (d ++ ')' :: rest)) = d :: inlineFrom 0 rest :=
  inlineFrom_link isGap_nil hne (fun hhead => hangle (List.mem_of_head? hhead)) (bare_of_plain h)
    rest

end Links

end AdfMarkdown.LinkDestination
