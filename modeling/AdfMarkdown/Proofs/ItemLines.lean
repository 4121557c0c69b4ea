import AdfMarkdown.Proofs.Lines
import AdfMarkdown.Proofs.Numbering
import AdfMarkdown.Proofs.Omitting

/-! # The lines of a list

A list gives the lines of its items, each item after its marker. An item has more than one line
exactly if rendering it comes to a list of several items or to a quotation of several blocks, so
this is when a list has more lines than items.
-/

namespace AdfMarkdown

namespace Text

theorem mem_toList_join_iff {c : Char} {sep : String} {parts : List String} :
    c ∈ (join sep parts).toList ↔
      (∃ s ∈ parts, c ∈ s.toList) ∨ 1 < parts.length ∧ c ∈ sep.toList := by
  induction parts with
  | nil => simp
  | cons s rest ih =>
    cases rest with
    | nil => simp
    | cons t rest =>
      have hmore : 1 < (s :: t :: rest).length := by simp
      rw [join_cons_cons, String.toList_append, String.toList_append, List.mem_append,
        List.mem_append, ih]
      rw [and_iff_right hmore]
      constructor
      · rintro ((h | h) | ⟨u, hu, h⟩ | ⟨-, h⟩)
        · exact .inl ⟨s, List.mem_cons_self, h⟩
        · exact .inr h
        · exact .inl ⟨u, List.mem_cons_of_mem s hu, h⟩
        · exact .inr h
      · rintro (⟨u, hu, h⟩ | h)
        · rcases List.mem_cons.mp hu with rfl | hu
          · exact .inl (.inl h)
          · exact .inr (.inl ⟨u, hu, h⟩)
        · exact .inl (.inr h)

theorem mem_toList_joinNonempty_iff {c : Char} {sep : String} {parts : List String} :
    c ∈ (joinNonempty sep parts).toList ↔
      (∃ s ∈ parts, c ∈ s.toList) ∨ 1 < (parts.filter (· ≠ "")).length ∧ c ∈ sep.toList := by
  have hparts : (∃ s ∈ parts.filter (· ≠ ""), c ∈ s.toList) ↔ ∃ s ∈ parts, c ∈ s.toList := by
    constructor
    · rintro ⟨s, hs, hc⟩
      exact ⟨s, (List.mem_filter.mp hs).1, hc⟩
    · rintro ⟨s, hs, hc⟩
      have hne : s ≠ "" := by
        rintro rfl
        cases hc
      exact ⟨s, List.mem_filter.mpr ⟨hs, by simpa using hne⟩, hc⟩
  rw [joinNonempty, mem_toList_join_iff, hparts]

theorem lines_join_eq_flatMap {parts : List String} (h : parts ≠ []) :
    lines (join "\n" parts) = parts.flatMap lines := by
  have hjoin : join "\n" (parts.flatMap lines) = join "\n" parts := by
    rw [join_flatMap fun s _ => lines_ne_nil s]
    simp only [join_lines, List.map_id']
  have hne : parts.flatMap lines ≠ [] := by
    obtain ⟨s, hs⟩ := List.exists_mem_of_ne_nil parts h
    obtain ⟨l, hl⟩ := List.exists_mem_of_ne_nil _ (lines_ne_nil s)
    exact List.ne_nil_of_mem (List.mem_flatMap.mpr ⟨s, hs, hl⟩)
  rw [← hjoin]
  refine lines_join hne fun l hl => ?_
  obtain ⟨s, -, hl⟩ := List.mem_flatMap.mp hl
  exact not_mem_of_mem_lines hl

theorem length_lines_pos (s : String) : 0 < (lines s).length :=
  List.length_pos_iff.mpr (lines_ne_nil s)

theorem length_lines_eq_one_iff {s : String} : (lines s).length = 1 ↔ '\n' ∉ s.toList := by
  rw [length_lines, Nat.add_eq_right, List.count_eq_zero]

theorem length_le_length_flatMap_lines (parts : List String) :
    parts.length ≤ (parts.flatMap lines).length := by
  induction parts with
  | nil => rfl
  | cons s rest ih =>
    have hs := length_lines_pos s
    rw [List.flatMap_cons, List.length_append, List.length_cons]
    omega

theorem length_flatMap_lines_eq_iff {parts : List String} :
    (parts.flatMap lines).length = parts.length ↔ ∀ s ∈ parts, '\n' ∉ s.toList := by
  induction parts with
  | nil => simp
  | cons s rest ih =>
    have hs := length_lines_pos s
    have hrest := length_le_length_flatMap_lines rest
    rw [List.forall_mem_cons, ← ih, ← length_lines_eq_one_iff, List.flatMap_cons,
      List.length_append, List.length_cons]
    omega

theorem flatMap_lines_eq_self {parts : List String} (h : ∀ s ∈ parts, '\n' ∉ s.toList) :
    parts.flatMap lines = parts := by
  induction parts with
  | nil => rfl
  | cons s rest ih =>
    rw [List.forall_mem_cons] at h
    rw [List.flatMap_cons, lines_eq_singleton h.1, ih h.2]
    rfl

end Text

theorem feed_not_mem_toString (n : Int) : '\n' ∉ (toString n).toList := by
  have hdigits (m : Nat) : '\n' ∉ (Nat.repr m).toList := by
    rw [Nat.toList_repr]
    intro h
    have hdigit := Nat.isDigit_of_mem_toDigits (by decide) (by decide) h
    exact absurd hdigit (by decide)
  cases n with
  | ofNat m => exact hdigits m
  | negSucc m =>
    have hsign : toString (Int.negSucc m) = "-" ++ Nat.repr (m + 1) := rfl
    rw [hsign, String.toList_append, List.mem_append, not_or]
    exact ⟨by decide, hdigits (m + 1)⟩

theorem feed_mem_quoteLine_iff {l : String} :
    '\n' ∈ (quoteLine l).toList ↔ '\n' ∈ l.toList := by
  rw [quoteLine]
  split
  · next h => simp [h]
  · simp

theorem feed_mem_quote_iff {s : String} : '\n' ∈ (quote s).toList ↔ '\n' ∈ s.toList := by
  have hlines : ¬ ∃ l ∈ (Text.lines s).map quoteLine, '\n' ∈ l.toList := by
    rintro ⟨quoted, hquoted, hfeed⟩
    obtain ⟨l, hl, rfl⟩ := List.mem_map.mp hquoted
    exact Text.not_mem_of_mem_lines hl (feed_mem_quoteLine_iff.mp hfeed)
  have hpos := Text.length_lines_pos s
  rw [quote]
  split
  · next h => rw [h]
  · rw [Text.mem_toList_join_iff, or_iff_right hlines, and_iff_left (by decide), List.length_map,
      ← not_iff_not, ← Text.length_lines_eq_one_iff]
    omega

theorem exists_of_lastDestination {marks : List Mark} {href : String}
    (h : lastDestination marks = some href) : ∃ m ∈ marks, m.href = some href := by
  have hmem : href ∈ marks.filterMap Mark.destination? := List.mem_of_getLast? h
  obtain ⟨m, hm, hdestination⟩ := List.mem_filterMap.mp hmem
  rw [Mark.destination?] at hdestination
  split at hdestination
  · exact ⟨m, hm, hdestination⟩
  · cases hdestination

theorem count_emphasized (text : String) (marks : List Mark) :
    (emphasized text marks).toList.count '\n' = text.toList.count '\n' := by
  rw [emphasized]
  split_ifs <;> simp [List.count_append]

theorem count_applyMarks {text : String} {marks : List Mark}
    (hmarks : ∀ m ∈ marks, ∀ href, m.href = some href → '\n' ∉ href.toList) :
    (applyMarks text marks).toList.count '\n' = text.toList.count '\n' := by
  rw [applyMarks]
  split
  · next href h =>
    obtain ⟨m, hm, hhref⟩ := exists_of_lastDestination h
    simp [List.count_append, count_emphasized,
      List.count_eq_zero_of_not_mem (hmarks m hm href hhref)]
  · exact count_emphasized text marks

theorem feed_not_mem_applyMarks {text : String} {marks : List Mark} (htext : '\n' ∉ text.toList)
    (hmarks : ∀ m ∈ marks, ∀ href, m.href = some href → '\n' ∉ href.toList) :
    '\n' ∉ (applyMarks text marks).toList := by
  rw [← List.count_eq_zero, count_applyMarks hmarks, List.count_eq_zero]
  exact htext

namespace Node

/-- The node itself breaks no line: it is neither a break nor code, and its text and the
destinations of its links have no line feed. -/
def Unbroken : Node → Prop
  | known kind _ _ text marks =>
    kind ≠ .hardBreak ∧ kind ≠ .codeBlock ∧ (∀ s, text = some s → '\n' ∉ s.toList) ∧
      ∀ m ∈ marks, ∀ href, m.href = some href → '\n' ∉ href.toList
  | foreign _ => True

/-- The node puts no line feed between what its children give: it is a list of at most one item, a
quotation of at most one block that is not empty, or neither. -/
def OneLine : Node → Prop
  | known .bulletList content .. | known .orderedList content .. =>
    (content.filter isItem).length ≤ 1
  | known .blockquote content .. => ∀ parts, shownBlocks content = .ok parts → parts.length ≤ 1
  | _ => True

def marker (x : Node) (i : Nat) : String :=
  match x with
  | known .orderedList _ attrs _ _ => toString ((orderOf attrs).toOption.getD 1 + i) ++ ". "
  | _ => "- "

theorem feed_not_mem_marker (x : Node) (i : Nat) : '\n' ∉ (x.marker i).toList := by
  unfold marker
  split
  · rw [String.toList_append, List.mem_append, not_or]
    exact ⟨feed_not_mem_toString _, by decide⟩
  · decide

theorem feed_not_mem_renderInline {xs : List Node} (h : ∀ x ∈ xs, Unbroken x) :
    '\n' ∉ (renderInline xs).toList := by
  rw [renderInline, Text.mem_toList_join_iff]
  rintro (⟨s, hs, hfeed⟩ | ⟨-, hfeed⟩)
  · obtain ⟨x, hx, rfl⟩ := List.mem_map.mp hs
    have hx := h x hx
    cases x with
    | foreign name => cases hfeed
    | known kind content attrs text marks =>
      obtain ⟨hbreak, -, htext, hmarks⟩ := hx
      cases kind with
      | hardBreak => exact hbreak rfl
      | text =>
        refine feed_not_mem_applyMarks ?_ hmarks hfeed
        cases text with
        | none => exact List.not_mem_nil
        | some s => exact htext s rfl
      | _ => cases hfeed
  · cases hfeed

/-- What holds of the texts of nodes holds of the nodes that give them. -/
theorem exists_mem_parts_iff {P : String → Prop} {Q : Node → Prop} {xs : List Node}
    {parts : List String} (h : renderBlocks xs = .ok parts)
    (hPQ : ∀ x ∈ xs, ∀ s, renderBlock x = .ok s → (P s ↔ Q x)) :
    (∃ s ∈ parts, P s) ↔ ∃ x ∈ xs, Q x := by
  induction renderBlocks_eq_ok_iff.mp h with
  | nil => simp
  | cons hs hrest ih =>
    rw [List.forall_mem_cons] at hPQ
    rw [List.exists_mem_cons_iff, List.exists_mem_cons_iff, hPQ.1 _ hs,
      ih (renderBlocks_eq_ok_iff.mpr hrest) hPQ.2]

/-- Rendering the node at the place comes to a block that puts a line feed between what its
children give. -/
def Breaks (p : Place) (x : Node) : Prop := ∃ y, x.Reaches p .block y ∧ ¬ OneLine y

theorem breaks_block_iff {x : Node} :
    Breaks .block x ↔ ¬ OneLine x ∨
      ∃ q, Place.opens? .block x.kind? = some q ∧ ∃ y ∈ x.content, Breaks q y := by
  constructor
  · rintro ⟨z, hz, hmore⟩
    rcases Place.reaches_iff.mp hz with ⟨-, rfl⟩ | ⟨q, hq, y, hy, hz⟩
    · exact .inl hmore
    · exact .inr ⟨q, hq, y, hy, z, hz, hmore⟩
  · rintro (hmore | ⟨q, hq, y, hy, z, hz, hmore⟩)
    · exact ⟨x, .self .block x, hmore⟩
    · exact ⟨z, .child hq hy hz, hmore⟩

theorem breaks_of_opens? {x : Node} {q : Place} (h : Place.opens? .block x.kind? = some q) :
    Breaks .block x ↔ ¬ OneLine x ∨ ∃ y ∈ x.content, Breaks q y := by
  rw [breaks_block_iff, h]
  simp only [Option.some.injEq, exists_eq_left']

theorem exists_breaks_list_iff {xs : List Node} :
    (∃ y ∈ xs, Breaks .list y) ↔ ∃ y ∈ xs.filter isItem, Breaks .block y := by
  constructor
  · rintro ⟨y, hy, z, hz, hmore⟩
    obtain ⟨hitem, hz⟩ := reaches_block_of_list hz
    exact ⟨y, List.mem_filter.mpr ⟨hy, hitem⟩, z, hz, hmore⟩
  · rintro ⟨y, hy, z, hz, hmore⟩
    rw [List.mem_filter] at hy
    rcases reaches_list_of_isItem hy.2 hz with rfl | hz
    · -- An item of its own puts no line feed between its blocks.
      obtain ⟨content, attrs, text, marks, rfl⟩ := exists_of_isItem hy.2
      exact absurd trivial hmore
    · exact ⟨y, hy.1, z, hz, hmore⟩

theorem not_breaks_of_inline {x : Node} {q : Place} (hone : OneLine x)
    (hq : q = .line ∨ q = .code) (h : Place.opens? .block x.kind? = some q) :
    ¬ Breaks .block x := by
  rw [breaks_of_opens? h]
  rintro (hmore | ⟨y, -, z, hz, -⟩)
  · exact hmore hone
  · exact not_reaches_block hq hz

theorem not_breaks_of_leaf {x : Node} (hone : OneLine x)
    (h : Place.opens? .block x.kind? = none) : ¬ Breaks .block x := by
  rw [breaks_block_iff, h]
  rintro (hmore | ⟨q, hq, -⟩)
  · exact hmore hone
  · cases hq

def marked (x : Node) (texts : List String) : List String :=
  texts.mapIdx fun i text => x.marker i ++ text

theorem exists_of_renderBlock_list {x : Node}
    (hlist : x.kind? = some .bulletList ∨ x.kind? = some .orderedList) {s : String}
    (h : renderBlock x = .ok s) : ∃ texts, renderBlocks (x.content.filter isItem) = .ok texts ∧
      s = Text.join "\n" (x.marked texts) := by
  cases x with
  | foreign name => rcases hlist with hlist | hlist <;> cases hlist
  | known kind content attrs text marks =>
    rcases hlist with hlist | hlist
    · obtain rfl := Option.some.inj hlist
      rw [renderBlock, renderItems_eq] at h
      obtain ⟨texts, htexts, h⟩ := exists_of_bind_eq_ok h
      obtain rfl := Except.ok.inj h
      refine ⟨texts, htexts, ?_⟩
      rw [marked, List.mapIdx_eq_zipIdx_map, ← List.zipIdx_map_fst 0 texts, List.map_map]
      simp only [List.zipIdx_map_fst]
      rfl
    · obtain rfl := Option.some.inj hlist
      rw [renderBlock, renderItems_eq] at h
      obtain ⟨texts, htexts, h⟩ := exists_of_bind_eq_ok h
      obtain ⟨first, hfirst, h⟩ := exists_of_bind_eq_ok h
      obtain ⟨lines, hlines, h⟩ := exists_of_bind_eq_ok h
      obtain rfl := Except.ok.inj h
      refine ⟨texts, htexts, ?_⟩
      rw [(numberItems_eq_ok_iff.mp hlines).2]
      simp only [marked, marker, hfirst, Except.toOption, Option.getD_some]

theorem exists_feed_mem_marked_iff (x : Node) (texts : List String) :
    (∃ l ∈ x.marked texts, '\n' ∈ l.toList) ↔ ∃ text ∈ texts, '\n' ∈ text.toList := by
  have hfeed (i : Nat) (text : String) :
      '\n' ∈ (x.marker i ++ text).toList ↔ '\n' ∈ text.toList := by
    rw [String.toList_append, List.mem_append, or_iff_right (feed_not_mem_marker x i)]
  constructor
  · rintro ⟨l, hl, h⟩
    obtain ⟨i, hi, rfl⟩ := List.mem_mapIdx.mp hl
    exact ⟨texts[i], List.getElem_mem hi, (hfeed i _).mp h⟩
  · rintro ⟨text, htext, h⟩
    obtain ⟨i, hi, rfl⟩ := List.mem_iff_getElem.mp htext
    exact ⟨_, List.mem_mapIdx.mpr ⟨i, hi, rfl⟩, (hfeed i _).mpr h⟩

theorem oneLine_blockquote_iff {content : List Node} {parts : List String}
    (h : renderBlocks content = .ok parts) (attrs : Fields) (text : Option String)
    (marks : List Mark) : OneLine (known .blockquote content attrs text marks) ↔
      (parts.filter (· ≠ "")).length ≤ 1 := by
  have hshown : shownBlocks content = .ok (parts.filter (· ≠ "")) := by
    rw [shownBlocks, h]
    rfl
  constructor
  · intro hone
    exact hone _ hshown
  · intro hfew shown hparts
    obtain rfl := Except.ok.inj (hshown.symm.trans hparts)
    exact hfew

/-- A block gives more than one line exactly if rendering it comes to a list of several items or to
a quotation of several blocks. -/
theorem feed_mem_renderBlock_iff (x : Node) : x.Everywhere Unbroken → ∀ {s : String},
    renderBlock x = .ok s → ('\n' ∈ s.toList ↔ Breaks .block x) := by
  induction x using Node.induct with
  | step x ih =>
    intro h s hs
    obtain ⟨hself, hbelow⟩ := everywhere_iff.mp h
    cases x with
    | foreign name =>
      obtain rfl := Except.ok.inj hs
      exact iff_of_false List.not_mem_nil (not_breaks_of_leaf trivial rfl)
    | known kind content attrs text marks =>
      have hinline : '\n' ∉ (renderInline content).toList :=
        feed_not_mem_renderInline fun y hy => hbelow y hy y (.self y)
      have hparts {xs : List Node} (hsub : ∀ y ∈ xs, y ∈ content) {parts : List String}
          (hparts : renderBlocks xs = .ok parts) :
          (∃ t ∈ parts, '\n' ∈ t.toList) ↔ ∃ y ∈ xs, Breaks .block y :=
        exists_mem_parts_iff hparts fun y hy t ht => ih y (hsub y hy) (hbelow y (hsub y hy)) ht
      have hlist (hkind : (known kind content attrs text marks).kind? = some .bulletList ∨
            (known kind content attrs text marks).kind? = some .orderedList) :
          '\n' ∈ s.toList ↔
            (∃ y ∈ content, Breaks .list y) ∨ 1 < (content.filter isItem).length := by
        obtain ⟨texts, htexts, rfl⟩ := exists_of_renderBlock_list hkind hs
        have hlength := (exists_of_renderBlocks_eq_ok htexts).1
        rw [Text.mem_toList_join_iff, exists_feed_mem_marked_iff, exists_breaks_list_iff,
          hparts (fun y hy => (List.mem_filter.mp hy).1) htexts, marked, List.length_mapIdx,
          hlength, and_iff_left (by decide)]
        rfl
      cases kind with
      | paragraph =>
        obtain rfl := Except.ok.inj hs
        exact iff_of_false hinline (not_breaks_of_inline trivial (.inl rfl) rfl)
      | heading =>
        obtain ⟨level, -, hs⟩ := exists_of_bind_eq_ok hs
        obtain rfl := Except.ok.inj hs
        refine iff_of_false ?_ (not_breaks_of_inline trivial (.inl rfl) rfl)
        simp [hinline, Text.toList_times (s := "#") (c := '#') rfl]
      | codeBlock => exact absurd rfl hself.2.1
      | hardBreak => exact absurd rfl hself.1
      | doc | text =>
        obtain rfl := Except.ok.inj hs
        exact iff_of_false List.not_mem_nil (not_breaks_of_leaf trivial rfl)
      | bulletList =>
        rw [hlist (.inl rfl), breaks_of_opens? rfl, OneLine, Nat.not_le, or_comm]
        rfl
      | orderedList =>
        rw [hlist (.inr rfl), breaks_of_opens? rfl, OneLine, Nat.not_le, or_comm]
        rfl
      | listItem =>
        obtain ⟨parts, hok, hs⟩ := exists_of_bind_eq_ok hs
        obtain rfl := Except.ok.inj hs
        have hspace : '\n' ∉ " ".toList := by decide
        rw [Text.mem_toList_joinNonempty_iff, or_iff_left (fun h => hspace h.2),
          hparts (fun _ hy => hy) hok, breaks_of_opens? rfl]
        exact (or_iff_right (not_not_intro trivial)).symm
      | blockquote =>
        obtain ⟨parts, hok, hs⟩ := exists_of_bind_eq_ok hs
        obtain rfl := Except.ok.inj hs
        rw [feed_mem_quote_iff, Text.mem_toList_joinNonempty_iff, hparts (fun _ hy => hy) hok,
          and_iff_left (by decide), breaks_of_opens? rfl, oneLine_blockquote_iff hok, Nat.not_le,
          or_comm]
        rfl

/-- A list gives the lines of its items, each item after its marker. It has one line for each item
exactly if rendering no item comes to a list of several items or to a quotation of several blocks,
and then each line is one item after its marker. -/
theorem lines_renderBlock_list {x : Node}
    (hlist : x.kind? = some .bulletList ∨ x.kind? = some .orderedList)
    (hitem : ∃ item ∈ x.content, item.isItem = true) (hunbroken : x.Everywhere Unbroken)
    (hrenders : ∀ y, x.Reaches .block .block y → Renders y) :
    ∃ s texts, renderBlock x = .ok s ∧ renderBlocks (x.content.filter isItem) = .ok texts ∧
      Text.lines s = (x.marked texts).flatMap Text.lines ∧
      ((Text.lines s).length = (x.content.filter isItem).length ↔
        ∀ item ∈ x.content, item.isItem = true →
          ∀ y, item.Reaches .block .block y → OneLine y) ∧
      ((Text.lines s).length = (x.content.filter isItem).length →
        Text.lines s = x.marked texts) := by
  obtain ⟨s, hs⟩ := exists_renderBlock_of_reaches x hrenders
  obtain ⟨texts, htexts, rfl⟩ := exists_of_renderBlock_list hlist hs
  have hlength : (x.marked texts).length = (x.content.filter isItem).length := by
    rw [marked, List.length_mapIdx, (exists_of_renderBlocks_eq_ok htexts).1]
  have hne : x.marked texts ≠ [] := by
    obtain ⟨item, hmem, hitem⟩ := hitem
    have hpos := List.length_pos_of_mem (List.mem_filter.mpr ⟨hmem, hitem⟩)
    exact List.ne_nil_of_length_pos (hlength ▸ hpos)
  have hlines := Text.lines_join_eq_flatMap hne
  have hfeeds : (∃ l ∈ x.marked texts, '\n' ∈ l.toList) ↔
      ∃ item ∈ x.content.filter isItem, Breaks .block item := by
    rw [exists_feed_mem_marked_iff]
    refine exists_mem_parts_iff htexts fun item hmem s hs => ?_
    exact feed_mem_renderBlock_iff item
      ((everywhere_iff.mp hunbroken).2 item (List.mem_filter.mp hmem).1) hs
  have hcount : (Text.lines (Text.join "\n" (x.marked texts))).length =
      (x.content.filter isItem).length ↔ ∀ l ∈ x.marked texts, '\n' ∉ l.toList := by
    rw [hlines, ← hlength]
    exact Text.length_flatMap_lines_eq_iff
  refine ⟨_, texts, hs, htexts, hlines, ?_, fun h => ?_⟩
  · rw [hcount]
    have hnone := not_congr hfeeds
    simpa [Breaks] using hnone
  · rw [hlines]
    exact Text.flatMap_lines_eq_self (hcount.mp h)

/-- A list from nine with a child that is no item. Its first item holds a quotation and a list, each
with one block that is not empty, and the second one holds a heading. -/
theorem lines_renderBlock_list_nested :
    let paragraph (s : String) : Node := branch .paragraph [run s []] []
    let item (blocks : List Node) : Node := branch .listItem blocks []
    let quotation : Node := branch .blockquote [paragraph "b", paragraph ""] []
    let inner : Node := branch .bulletList [item [paragraph "c"], foreign "rule"] []
    let x : Node := branch .orderedList [item [paragraph "a", quotation, inner], paragraph "stray",
      item [branch .heading [run "d" [.link "/u"]] [("level", .int 2)]]] [("order", .int 9)]
    (∃ item ∈ x.content, item.isItem = true) ∧ x.Everywhere Unbroken ∧
      (∀ y, x.Reaches .block .block y → Renders y) ∧
      renderBlock x = .ok "9. a > b - c\n10. ## [d](/u)" ∧ x.content.length = 3 ∧
      Text.lines "9. a > b - c\n10. ## [d](/u)" = x.marked ["a > b - c", "## [d](/u)"] ∧
      ∀ item ∈ x.content, item.isItem = true → ∀ y, item.Reaches .block .block y → OneLine y := by
  intro paragraph item quotation inner x
  have hitem : ∃ item ∈ x.content, item.isItem = true := ⟨_, List.mem_cons_self, rfl⟩
  have hnumbers : numberItems (9 : Nat) ["a > b - c", "## [d](/u)"] = .ok _ :=
    numberItems_eq_ok (Nat.le_trans (by decide) le_pow_maxDigits)
  have hrender : renderBlock x = .ok "9. a > b - c\n10. ## [d](/u)" :=
    renderBlock_orderedList rfl rfl hnumbers none []
  have hunbroken : x.Everywhere Unbroken := by
    simp [x, inner, quotation, item, paragraph, branch, run, Mark.link, everywhere_known,
      everywhere_foreign, Unbroken]
  have hrenders := renders_of_renderBlock_eq_ok x hrender
  obtain ⟨s, texts, hs, htexts, -, hone, hlines⟩ :=
    lines_renderBlock_list (.inr rfl) hitem hunbroken hrenders
  obtain rfl := Except.ok.inj (hrender.symm.trans hs)
  have hcount : (Text.lines "9. a > b - c\n10. ## [d](/u)").length =
      (x.content.filter isItem).length := by cbv
  have hitems : renderBlocks (x.content.filter isItem) = .ok ["a > b - c", "## [d](/u)"] := rfl
  obtain rfl := Except.ok.inj (hitems.symm.trans htexts)
  exact ⟨hitem, hunbroken, hrenders, hrender, rfl, hlines hcount, hone.mp hcount⟩

/-- An item that holds a list of two items has two lines, and the second one reads as an item of the
list around it. -/
theorem lines_listWithinItem :
    let paragraph (s : String) : Node := branch .paragraph [run s []] []
    let item (blocks : List Node) : Node := branch .listItem blocks []
    let list (items : List Node) : Node := branch .bulletList items []
    let x := list [item [paragraph "a", list [item [paragraph "b"], item [paragraph "c"]]]]
    x.Everywhere Unbroken ∧ (∀ y, x.Reaches .block .block y → Renders y) ∧
      (x.content.filter isItem).length = 1 ∧ renderBlock x = .ok "- a - b\n- c" ∧
      Text.lines "- a - b\n- c" = ["- a - b", "- c"] := by
  intro paragraph item list x
  have hrender : renderBlock x = .ok "- a - b\n- c" := rfl
  have hunbroken : x.Everywhere Unbroken := by
    simp [x, list, item, paragraph, branch, run, everywhere_known, Unbroken]
  exact ⟨hunbroken, renders_of_renderBlock_eq_ok x hrender, rfl, hrender, rfl⟩

end Node

end AdfMarkdown
