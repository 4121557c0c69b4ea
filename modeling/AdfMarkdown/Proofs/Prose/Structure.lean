import AdfMarkdown.Proofs.Prose.Container
import Mathlib.Tactic.Ring

/-! # The structure of prose

The first line of a block tells what it is, and the block takes just its own lines. So the blocks
are read one after the other, and those within a quotation are read like those outside of it, with
one more container around them.
-/

namespace AdfMarkdown.Prose

open Markdown

variable {c : Cursor} {cs rest : List Cursor} {ls : List String}
variable {depth fuel : Nat} {tables : Bool} {acc : List Markdown.Block}
variable {sign : ListSign} {number : Nat} {p : Phrase}

/-! ## Blocks one after the other -/

namespace Block

def steps (b : Block) : Nat := (b.lines.length + 4) * (b.height + 1)

/-- The first line tells what the block is, and it takes just its own lines. -/
def ReadsAlone (depth : Nat) (b : Block) : Prop :=
  ∀ c cs rest, Lines (c :: cs) b.lines → Ends rest → Unindented c ∧
    ∃ s, (∀ next, s ≠ .item next) ∧ (∀ position, BlockStart.read? depth position c = some s) ∧
      ∀ fuel acc, b.steps ≤ fuel →
        Progress.readBlock fuel depth acc c (cs ++ rest) s = ⟨b.read :: acc, rest⟩

/-- The block can be read with `depth` containers around it. -/
structure Readable (depth : Nat) (b : Block) : Prop where
  legible : b.Legible
  shallow : depth + b.height ≤ BlockStart.maxDepth
  alone : b.listSign? = none → (∀ p, b ≠ paragraph p) → b.ReadsAlone depth

theorem sign_ne_of_joins {b b' : Block} {sign sign' : ListSign} (hsign : b.listSign? = some sign)
    (hsign' : b'.listSign? = some sign') (h : b.joins b' = false) : sign' ≠ sign := by
  rintro rfl
  have hjoins : b.joins b' = true := by
    cases b <;> cases hsign <;> cases b' <;> cases hsign' <;> rfl
  rw [h] at hjoins
  cases hjoins

theorem height_eq_one {b : Block} (hsign : b.listSign? = some sign) : b.height = 1 := by
  cases b <;> cases hsign <;> rw [height]

theorem Readable.depth_lt {b : Block} (hb : b.Readable depth) (hsign : b.listSign? = some sign) :
    depth < BlockStart.maxDepth := by
  have hshallow := hb.shallow
  rw [height_eq_one hsign] at hshallow
  omega

end Block

theorem Ends.of_lines {bs : List Block} (h : Lines rest (Block.linesAfter false bs)) :
    Ends rest := by
  cases bs with
  | nil =>
    cases h
    exact fun c hc => by cases hc
  | cons b bs =>
    cases h with
    | cons hc _ =>
      intro c' hc'
      obtain rfl := Option.some.inj hc'
      exact hc

def ReadsEach (tables : Bool) (depth bound : Nat) (bs : List Block) : Prop :=
  ∀ isTaken fuel acc cs, (isTaken = true → Markdown.Block.endsInParagraph acc = false) →
    cs.length + bound ≤ fuel → Lines cs (Block.linesAfter isTaken bs) →
      Progress.readAll tables fuel depth acc cs = (Block.readAfter isTaken bs).reverse ++ acc

variable {b b' : Block} {bs : List Block} {bound : Nat}

theorem next_of_list (hb : b'.Readable depth) (hsign : b.listSign? = some sign)
    (hjoins : b.joins b' = false) (halone : b'.listSign? = none → ∃ p, b' = .paragraph p)
    (h : Lines cs b'.lines) :
    ∃ c cs', cs = c :: cs' ∧ Unindented c ∧
      (BlockStart.read? depth .beside c = none ∨ ∃ next, next.sign ≠ sign ∧
        BlockStart.read? depth .beside c = some (.item next)) := by
  cases hsign' : b'.listSign? with
  | none =>
    obtain ⟨p, rfl⟩ := halone hsign'
    have hp : p.Flows := hb.legible
    obtain ⟨l, ls, hls⟩ := List.exists_cons_of_ne_nil (Text.lines_ne_nil p.markdown)
    rw [Block.lines, hls] at h
    have hl := hp.opensText l (hls ▸ List.mem_cons_self)
    cases h with
    | @cons c _ cs _ hc _ =>
      obtain ⟨hunindented, hread⟩ := hc.starts_nothing hl
      exact ⟨c, cs, rfl, hunindented, .inl (hread _ _)⟩
  | some sign' =>
    have hdepth : depth < BlockStart.maxDepth := hb.depth_lt hsign'
    obtain ⟨c, cs', item, rfl, hunindented, hitem, hread, -⟩ :=
      readBlock_list hb.legible hsign' h hdepth
    refine ⟨c, cs', rfl, hunindented, .inr ⟨item, ?_, hread .beside (by decide)⟩⟩
    rw [hitem]
    exact Block.sign_ne_of_joins hsign hsign' hjoins

theorem exists_next (h : Lines rest (Block.linesAfter false (b :: bs))) :
    ∃ c cs, rest = c :: cs ∧ Lines cs (Block.linesAfter true (b :: bs)) := by
  cases h with
  | @cons c _ cs _ _ hcs => exact ⟨c, cs, rfl, hcs⟩

theorem exists_cons_of_lines (h : Lines cs b.lines) : ∃ c cs', cs = c :: cs' := by
  cases hls : b.lines with
  | nil => exact absurd hls b.lines_ne_nil
  | cons l ls =>
    rw [hls] at h
    cases h with
    | cons => exact ⟨_, _, rfl⟩

theorem readAll_items (hb : b.Readable depth) (hsign : b.listSign? = some sign)
    (hsteps : b.steps ≤ bound) (hacc : Markdown.Block.endsInParagraph acc = false)
    (h : Lines cs b.lines) (hfuel : cs.length + rest.length + bound ≤ fuel) :
    ∃ start p done last more f g, StartsItem sign p last more ∧
      b.read = .list sign start (p.readItem :: done).reverse ∧ more.length + 3 ≤ g ∧
      rest.length + bound ≤ f ∧ rest.length + bound ≤ g + 2 ∧
      Progress.readAll tables fuel depth acc (cs ++ rest) = Progress.readAll tables f depth
        (Progress.readItems (g + 1) depth acc sign start done last (more ++ rest)).blocks
        (Progress.readItems (g + 1) depth acc sign start done last (more ++ rest)).left := by
  obtain ⟨c, cs', item, rfl, hunindented, -, hread, start, p, done, last, more, steps, hlast, hb',
    hlength, hitems⟩ := readBlock_list hb.legible hsign h (hb.depth_lt hsign)
  have hlarge : 8 ≤ b.steps := by
    rw [Block.steps, Block.height_eq_one hsign]
    omega
  obtain ⟨f, g, rfl, hg⟩ : ∃ f g, fuel = f + 1 ∧ f - 1 - steps = g + 1 :=
    ⟨fuel - 1, fuel - 3 - steps, by omega, by omega⟩
  refine ⟨start, p, done, last, more, f, g, hlast, hb', by omega, by omega, by omega, ?_⟩
  rw [List.cons_append, readAll_start hunindented.filled hacc (hread .fresh (by decide)),
    hitems f acc rest hacc (by omega), hg]

theorem readAll_list (hb : b.Readable depth) (hsign : b.listSign? = some sign)
    (hjoins : ∀ b' ∈ bs.head?, b.joins b' = false) (hbs : ∀ b' ∈ bs, b'.Readable depth)
    (hbound : ∀ b' ∈ b :: bs, b'.steps ≤ bound) (ih : ReadsEach tables depth bound bs)
    (ih' : ReadsEach tables depth bound bs.tail)
    (hacc : Markdown.Block.endsInParagraph acc = false) (hfuel : cs.length + bound ≤ fuel)
    (h : Lines cs (Block.linesAfter true (b :: bs))) :
    Progress.readAll tables fuel depth acc cs =
      (Block.readAfter true (b :: bs)).reverse ++ acc := by
  have hislist : b.isList = true := by rw [Block.isList, hsign]; rfl
  obtain ⟨cs₁, rest, rfl, hcs₁, hlines⟩ := Lines.of_append b.lines h
  have hrest := Ends.of_lines hlines
  rw [List.length_append] at hfuel
  obtain ⟨start, p, done, last, more, f, g, hlast, hb', hmore, hf, hg, heq⟩ :=
    readAll_items hb hsign (hbound b List.mem_cons_self) hacc hcs₁ hfuel
  have hacc' : Markdown.Block.endsInParagraph (b.read :: acc) = false := by rw [hb']; rfl
  rw [heq, Block.readAfter, hislist]
  cases bs with
  | nil =>
    cases hlines
    rw [readItems_last hlast hrest (by simp) done hmore, ← hb', List.tail_nil, readAll_nil]
    simp [Block.readAfter]
  | cons b' bs =>
    obtain ⟨c₀, rest, rfl, hnext⟩ := exists_next hlines
    rw [List.forall_mem_cons] at hbs
    have hjoins : b.joins b' = false := hjoins b' rfl
    rw [List.length_cons] at hf hg
    -- A block that is neither a list nor a paragraph is read by the list that it ends.
    by_cases halone : b'.listSign? = none ∧ ∀ p, b' ≠ .paragraph p
    · have hislist' : b'.isList = false := by rw [Block.isList, halone.1]; rfl
      obtain ⟨cs₂, rest, rfl, hcs₂, hafter⟩ := Lines.of_append b'.lines hnext
      obtain ⟨c₂, cs₂, rfl⟩ := exists_cons_of_lines hcs₂
      obtain ⟨hunindented, s, hs, hread, hblock⟩ :=
        hbs.1.alone halone.1 halone.2 c₂ cs₂ rest hcs₂ (Ends.of_lines hafter)
      have hsteps' := hbound b' (by simp)
      rw [List.length_append, List.length_cons] at hf hg
      rw [readItems_block hlast hrest rfl hunindented (hread .beside) hs
          (hblock g acc (by omega)) done hmore, ← hb',
        ih' false _ _ rest (fun h => by cases h) (by omega) hafter]
      simp [Block.readAfter, hislist']
    · have halone : b'.listSign? = none → ∃ p, b' = .paragraph p := fun hnone =>
        by_contra fun hnot => halone ⟨hnone, fun p hp => hnot ⟨p, hp⟩⟩
      obtain ⟨cs₂, rest', hsplit, hcs₂, -⟩ := Lines.of_append b'.lines hnext
      obtain ⟨c₂, cs₂, rfl, hstart⟩ := next_of_list hbs.1 hsign hjoins halone hcs₂
      rw [readItems_last hlast hrest (by simpa [hsplit] using hstart) done hmore, ← hb',
        List.tail_cons, ih true _ _ rest (fun _ => hacc') (by omega) hnext]
      simp

theorem readAll_other (hb : b.Readable depth) (hsign : b.listSign? = none)
    (hsteps : b.steps ≤ bound) (ih : ReadsEach tables depth bound bs)
    (hacc : Markdown.Block.endsInParagraph acc = false) (hfuel : cs.length + bound ≤ fuel)
    (h : Lines cs (Block.linesAfter true (b :: bs))) :
    Progress.readAll tables fuel depth acc cs =
      (Block.readAfter true (b :: bs)).reverse ++ acc := by
  have hnotlist : b.isList = false := by rw [Block.isList, hsign]; rfl
  obtain ⟨cs₁, rest, rfl, hcs₁, hlines⟩ := Lines.of_append b.lines h
  have hrest := Ends.of_lines hlines
  rw [List.length_append] at hfuel
  by_cases hp : ∃ p, b = .paragraph p
  · obtain ⟨p, rfl⟩ := hp
    have hflows : p.Flows := hb.legible
    obtain ⟨f, rfl⟩ : ∃ f, fuel = f + cs₁.length := ⟨fuel - cs₁.length, by omega⟩
    rw [readAll_paragraph hflows hcs₁ hrest hacc,
      ih false f _ rest (fun h => by cases h) (by omega) hlines]
    simp [Block.readAfter, Block.read, hnotlist]
  · have halone := hb.alone hsign fun p hp' => hp ⟨p, hp'⟩
    obtain ⟨c, cs', rfl⟩ := exists_cons_of_lines hcs₁
    obtain ⟨hunindented, s, -, hs, hblock⟩ := halone c cs' rest hcs₁ hrest
    rw [List.length_cons] at hfuel
    obtain ⟨f, rfl⟩ : ∃ f, fuel = f + 1 := ⟨fuel - 1, by omega⟩
    rw [List.cons_append, readAll_start hunindented.filled hacc (hs .fresh),
      hblock f acc (by omega), ih false f _ rest (fun h => by cases h) (by omega) hlines]
    simp [Block.readAfter, hnotlist]

/-- One block after the other is read. -/
theorem readsEach (hbs : Block.EachLegible bs) (hread : ∀ b ∈ bs, b.Readable depth)
    (hbound : ∀ b ∈ bs, b.steps ≤ bound) :
    ReadsEach tables depth bound bs ∧ ReadsEach tables depth bound bs.tail := by
  induction bs with
  | nil =>
    have hnil : ReadsEach tables depth bound [] := by
      intro isTaken fuel acc cs _ _ h
      cases isTaken <;> cases h <;> exact readAll_nil
    exact ⟨hnil, hnil⟩
  | cons b bs ih =>
    rw [List.forall_mem_cons] at hread
    obtain ⟨-, hjoins, hbs⟩ := hbs
    obtain ⟨ih, ih'⟩ := ih hbs hread.2 fun b' hb' => hbound b' (List.mem_cons_of_mem b hb')
    have hfirst : ∀ fuel acc cs, Markdown.Block.endsInParagraph acc = false →
        cs.length + bound ≤ fuel → Lines cs (Block.linesAfter true (b :: bs)) →
          Progress.readAll tables fuel depth acc cs =
            (Block.readAfter true (b :: bs)).reverse ++ acc := by
      intro fuel acc cs hacc hfuel h
      cases hsign : b.listSign? with
      | some sign =>
        exact readAll_list hread.1 hsign hjoins hread.2 hbound ih ih' hacc hfuel h
      | none =>
        exact readAll_other hread.1 hsign (hbound b List.mem_cons_self) ih hacc hfuel h
    refine ⟨fun isTaken fuel acc cs hacc hfuel h => ?_, ih⟩
    cases isTaken with
    | true => exact hfirst fuel acc cs (hacc rfl) hfuel h
    | false =>
      cases h with
      | @cons c _ cs _ hc hcs =>
        rw [List.length_cons] at hfuel
        obtain ⟨f, rfl⟩ : ∃ f, fuel = f + 1 := ⟨fuel - 1, by omega⟩
        rw [readAll_blank hc, hfirst f _ cs rfl (by omega) hcs]
        simp [Block.readAfter]

/-! ## All of the blocks -/

namespace Block

theorem length_lines_le (h : b ∈ bs) (isTaken : Bool) :
    b.lines.length ≤ (linesAfter isTaken bs).length := by
  induction bs generalizing isTaken with
  | nil => cases h
  | cons b' bs ih =>
    rw [linesAfter, List.length_append, List.length_append]
    rcases List.mem_cons.mp h with rfl | h
    · omega
    · have hle := ih h false
      omega

theorem height_le (h : b ∈ bs) : b.height ≤ heightOfEach bs := by
  induction bs with
  | nil => cases h
  | cons b' bs ih =>
    rw [heightOfEach]
    rcases List.mem_cons.mp h with rfl | h
    · exact Nat.le_max_left _ _
    · exact (ih h).trans (Nat.le_max_right _ _)

theorem steps_pos (b : Block) : 0 < b.steps :=
  Nat.mul_pos (Nat.succ_pos _) (Nat.succ_pos _)

theorem steps_le (h : b ∈ bs) :
    b.steps ≤ ((linesAfter true bs).length + 4) * (heightOfEach bs + 1) :=
  Nat.mul_le_mul (Nat.add_le_add_right (length_lines_le h true) 4)
    (Nat.add_le_add_right (height_le h) 1)

theorem toList_heading (level : Nat) (p : Phrase) :
    (Text.times "#" level ++ " " ++ p.markdown).toList =
      List.replicate level '#' ++ ' ' :: chars p.runs := by
  rw [String.toList_append, String.toList_append, Text.toList_times (s := "#") rfl,
    p.toList_markdown, List.append_assoc]
  rfl

theorem lines_heading {level : Nat} {h1 : 1 ≤ level} {h6 : level ≤ 6} (hp : p.FitsHeading) :
    (heading level h1 h6 p).lines = [Text.times "#" level ++ " " ++ p.markdown] := by
  apply Text.lines_eq_singleton
  rw [toList_heading]
  simp [hp.one_line]

theorem readsAlone_heading {level : Nat} {h1 : 1 ≤ level} {h6 : level ≤ 6} (hp : p.FitsHeading) :
    (heading level h1 h6 p).ReadsAlone depth := by
  intro c cs rest h hrest
  rw [lines_heading hp] at h
  cases h with
  | cons hc hcs =>
    cases hcs
    rw [toList_heading] at hc
    have hunindented : Unindented c := by
      obtain ⟨n, rfl⟩ : ∃ n, level = n + 1 := ⟨level - 1, by omega⟩
      exact At.unindented hc (by decide)
    have hfirst : ∀ d ∈ (chars p.runs).head?, Text.isSpace d = false := by
      intro d hd
      have hfirst := hp.first
      rw [next, hd] at hfirst
      exact hfirst
    refine ⟨hunindented, .heading level (chars p.runs), nofun, fun position =>
      read?_heading h1 h6 hfirst hp.last hp.no_sign hc, fun fuel acc hfuel => ?_⟩
    have hpos := (steps_pos (heading level h1 h6 p)).trans_le hfuel
    obtain ⟨f, rfl⟩ := Nat.exists_eq_add_one.mpr hpos
    rfl

theorem language_cases {language : Option String} {text : String}
    (h : (code language text).Legible) : ∀ d ∈ (language.getD "").toList,
      Text.isSpace d = false ∧ d ≠ '\x60' ∧ d ≠ '\\' := by
  obtain ⟨hlanguage, -⟩ := h
  cases language with
  | none => simp
  | some l => exact isLanguage_cases (hlanguage l rfl)

theorem readsAlone_code {language : Option String} {text : String}
    (h : (code language text).Legible) : (code language text).ReadsAlone depth := by
  intro c cs rest hcs hrest
  have hchars := language_cases h
  obtain ⟨-, -, hfences⟩ := h
  have hone : '\n' ∉ ("```" ++ language.getD "").toList := by
    rw [String.toList_append, List.mem_append]
    rintro (h | h)
    · exact absurd h (by decide)
    · exact absurd (hchars _ h).1 (by decide)
  have hfences : ∀ l ∈ Text.lines text, isFence l.toList = false := by
    intro l hl
    obtain ⟨piece, hpiece, rfl⟩ := List.mem_map.mp hl
    rw [String.toList_ofList]
    exact hfences piece hpiece
  rw [lines, Text.lines_eq_singleton hone] at hcs
  cases hcs with
  | @cons _ _ _ _ hc hcs =>
    obtain ⟨inside, last, rfl, hinside, hlast⟩ := Lines.of_append (Text.lines text) hcs
    cases hlast with
    | @cons c' _ _ _ hc' hnil =>
      cases hnil
      rw [String.toList_append] at hc
      refine ⟨At.unindented hc (by decide), .fence ⟨'\x60', 3, 0, (language.getD "").toList⟩, nofun,
        fun position => read?_fence hchars hc, fun fuel acc hfuel => ?_⟩
      obtain ⟨f, rfl⟩ := Nat.exists_eq_add_one.mpr ((steps_pos (code language text)).trans_le hfuel)
      rw [List.append_assoc, Progress.readBlock]
      simp only [List.singleton_append, take_fence hinside hfences hc', Taken.text, hinside.text,
        Text.flatMap_lines]
      rfl

theorem readsAlone_quote {first : Block} {rest : List Block}
    (h : ∀ b ∈ first :: rest, b.Readable (depth + 1)) (hlegible : EachLegible (first :: rest))
    (hdepth : depth < BlockStart.maxDepth) : (quote first rest).ReadsAlone depth := by
  intro c cs after hcs hafter
  have hlines : (quote first rest).lines = (linesAfter true (first :: rest)).map quotedLine := by
    rw [lines, linesOfEach_eq_map, ← List.map_cons, intercalate_lines]
  rw [hlines] at hcs
  obtain ⟨inner, cs', hinner, hread, hblock⟩ := readBlock_quote hcs hafter hdepth
  have hunindented : Unindented c := by
    cases hls : linesAfter true (first :: rest) with
    | nil =>
      rw [hls] at hcs
      cases hcs
    | cons l ls =>
      rw [hls] at hcs
      cases hcs with
      | cons hc _ =>
        obtain ⟨t, ht⟩ := toList_quotedLine l
        rw [ht] at hc
        exact hc.unindented (by decide)
  refine ⟨hunindented, .quote inner, nofun, hread, fun fuel acc hfuel => ?_⟩
  have hlength := hinner.length_eq
  have hsteps : (quote first rest).steps =
      ((linesAfter true (first :: rest)).length + 4) * (heightOfEach (first :: rest) + 1) +
        (linesAfter true (first :: rest)).length + 4 := by
    rw [steps, hlines, List.length_map, height, heightOfEach]
    ring
  obtain ⟨f, rfl⟩ : ∃ f, fuel = f + 2 := ⟨fuel - 2, by omega⟩
  have hread : Progress.readAll false f (depth + 1) [] (inner :: cs') = _ :=
    (readsEach hlegible h fun b => steps_le).1 true f [] (inner :: cs') (fun _ => rfl) (by omega)
      hinner
  rw [hblock, Progress.readInside, hread, read]
  simp [readAfter]

mutual

theorem readable : ∀ b : Block, ∀ depth, b.Legible → depth + b.height ≤ BlockStart.maxDepth →
    b.Readable depth
  | paragraph p, _, h, hshallow => ⟨h, hshallow, fun _ hp => absurd rfl (hp p)⟩
  | heading .., _, h, hshallow => ⟨h, hshallow, fun _ _ => readsAlone_heading h⟩
  | bullet .., _, h, hshallow => ⟨h, hshallow, fun hsign => by cases hsign⟩
  | ordered .., _, h, hshallow => ⟨h, hshallow, fun hsign => by cases hsign⟩
  | quote first rest, depth, h, hshallow => by
    refine ⟨h, hshallow, fun _ _ => ?_⟩
    rw [height] at hshallow
    refine readsAlone_quote ?_ h (by omega)
    rw [List.forall_mem_cons]
    exact ⟨readable first (depth + 1) h.1 (by omega),
      readableEach rest (depth + 1) h.2.2 (by omega)⟩
  | code .., _, h, hshallow => ⟨h, hshallow, fun _ _ => readsAlone_code h⟩

theorem readableEach : ∀ bs : List Block, ∀ depth, EachLegible bs →
    depth + heightOfEach bs ≤ BlockStart.maxDepth → ∀ b ∈ bs, b.Readable depth
  | [], _, _, _ => by simp
  | b :: bs, depth, h, hshallow => by
    rw [heightOfEach] at hshallow
    rw [List.forall_mem_cons]
    exact ⟨readable b depth h.1 (by omega), readableEach bs depth h.2.2 (by omega)⟩

end

end Block

/-! ## The lines of a text -/

theorem unify_eq_self {s : List Char} (h : '\r' ∉ s) : textLines.unify s = s := by
  fun_induction textLines.unify s with
  | case1 => rfl
  | case2 => exact absurd List.mem_cons_self h
  | case3 => exact absurd List.mem_cons_self h
  | case4 c s _ _ ih => rw [ih fun hs => h (List.mem_cons_of_mem c hs)]

theorem textLines_join {ls : List String} (hls : ls ≠ [])
    (h : ∀ l ∈ ls, '\n' ∉ l.toList ∧ '\r' ∉ l.toList) (hlast : ∀ l ∈ ls.getLast?, l ≠ "") :
    textLines (Text.join "\n" ls).toList = ls.map String.toList := by
  have hlines := Text.lines_join hls fun l hl => (h l hl).1
  have hsplit : Text.splitAt '\n' (Text.join "\n" ls).toList = ls.map String.toList := by
    have hmap := congrArg (List.map String.toList) hlines
    rw [Text.lines, List.map_map] at hmap
    have hid : String.toList ∘ String.ofList = id := funext fun s => String.toList_ofList
    rwa [hid, List.map_id] at hmap
  have hreturn : '\r' ∉ (Text.join "\n" ls).toList := by
    intro hmem
    have hmem := List.mem_append_left ['\n'] hmem
    rw [← Text.flatMap_lines, hlines] at hmem
    obtain ⟨l, hl, hmem⟩ := List.mem_flatMap.mp hmem
    rcases List.mem_append.mp hmem with hmem | hmem
    · exact (h l hl).2 hmem
    · exact absurd hmem (by decide)
  have hfilled : (ls.map String.toList).getLast? ≠ some [] := by
    rw [List.getLast?_map]
    intro hempty
    obtain ⟨l, hl, hnil⟩ := Option.map_eq_some_iff.mp hempty
    exact hlast l hl (String.toList_eq_nil_iff.mp hnil)
  unfold textLines
  rw [unify_eq_self hreturn, hsplit]
  dsimp only
  rw [if_neg (by simpa only [beq_iff_eq] using hfilled)]

theorem return_not_mem_lines {t : String} (ht : '\r' ∉ t.toList) {p : Phrase}
    (hp : '\r' ∉ chars p.runs) : ∀ l ∈ Text.lines (t ++ p.markdown), '\r' ∉ l.toList := by
  intro l hl hmem
  have hmem := Text.mem_of_mem_lines hl hmem
  rw [String.toList_append, p.toList_markdown, List.mem_append] at hmem
  exact hmem.elim ht hp

theorem return_not_mem_quotedLine {line : String} (h : '\r' ∉ line.toList) :
    '\r' ∉ (quotedLine line).toList := by
  by_cases hl : line = "" <;> simp [quotedLine, hl, h]

namespace Block

mutual

theorem return_not_mem : ∀ b : Block, b.Legible → ∀ l ∈ b.lines, '\r' ∉ l.toList
  | paragraph p, h, l, hl => by
    have hp : p.Flows := h
    rw [lines, ← String.empty_append (s := p.markdown)] at hl
    exact return_not_mem_lines (by decide) hp.no_return l hl
  | heading level _ _ p, h, l, hl => by
    have hp : p.FitsHeading := h
    refine return_not_mem_lines ?_ hp.no_return l hl
    rw [String.toList_append, Text.toList_times (s := "#") rfl, List.mem_append]
    rintro (h | h)
    · exact absurd (List.eq_of_mem_replicate h) (by decide)
    · exact absurd h (by decide)
  | bullet items _, h, l, hl => by
    obtain ⟨p, hp, hl⟩ := List.mem_flatMap.mp hl
    exact return_not_mem_lines (by decide) (h p hp).no_return l hl
  | ordered start items _ _, h, l, hl => by
    obtain ⟨⟨p, n⟩, hpn, hl⟩ := List.mem_flatMap.mp hl
    have hp := h p (List.fst_mem_of_mem_zipIdx hpn)
    exact return_not_mem_lines (not_mem_number (by decide) (by decide) n) hp.no_return l hl
  | quote first rest, h, l, hl => by
    rw [lines, linesOfEach_eq_map, ← List.map_cons, intercalate_lines] at hl
    obtain ⟨line, hline, rfl⟩ := List.mem_map.mp hl
    apply return_not_mem_quotedLine
    rw [linesAfter, if_pos rfl, List.nil_append, List.mem_append] at hline
    rcases hline with hline | hline
    · exact return_not_mem first h.1 line hline
    · exact return_not_mem_each rest h.2.2 false line hline
  | code language text, h, l, hl => by
    have hlanguage := language_cases h
    obtain ⟨-, htext, -⟩ := h
    rw [lines, List.mem_append, List.mem_append] at hl
    rcases hl with (hl | hl) | hl
    · intro hmem
      have hmem := Text.mem_of_mem_lines hl hmem
      rw [String.toList_append, List.mem_append] at hmem
      rcases hmem with hmem | hmem
      · exact absurd hmem (by decide)
      · exact absurd (hlanguage _ hmem).1 (by decide)
    · exact fun hmem => htext (Text.mem_of_mem_lines hl hmem)
    · obtain rfl := List.mem_singleton.mp hl
      decide

theorem return_not_mem_each : ∀ bs : List Block, EachLegible bs → ∀ isTaken,
    ∀ l ∈ linesAfter isTaken bs, '\r' ∉ l.toList
  | [], _, _, l, hl => by cases hl
  | b :: bs, h, isTaken, l, hl => by
    rw [linesAfter, List.mem_append, List.mem_append] at hl
    rcases hl with hl | hl | hl
    · cases isTaken
      · obtain rfl := List.mem_singleton.mp hl
        decide
      · cases hl
    · exact return_not_mem b h.1 l hl
    · exact return_not_mem_each bs h.2.2 false l hl

end

theorem ne_empty_of_items {ps : List Phrase} (h : ItemLines sign ps ls) : ∀ l ∈ ls, l ≠ "" := by
  induction h with
  | nil => nofun
  | cons hitem _ ih =>
    obtain ⟨hp, marker, first, -, hline, hlines⟩ := hitem
    have hopens := hp.opensText
    rw [hlines, List.forall_mem_cons] at hopens
    refine List.forall_mem_cons.mpr ⟨?_, fun l hl => ?_⟩
    · rintro rfl
      simp at hline
    · rcases List.mem_append.mp hl with hl | hl
      · rintro rfl
        exact absurd (hopens.2 _ hl) (by decide)
      · exact ih l hl

theorem getLast_lines_ne (h : b.Legible) : ∀ l ∈ b.lines.getLast?, l ≠ "" := by
  intro l hl
  cases b with
  | paragraph p =>
    have hp : p.Flows := h
    rintro rfl
    exact absurd (hp.opensText _ (List.mem_of_mem_getLast? hl)) (by decide)
  | heading level h1 h6 p =>
    rw [lines_heading h] at hl
    obtain rfl := Option.some.inj hl
    simp
  | bullet items hne =>
    obtain ⟨start, p, ps, l', more, ls, hlines, hitem, hitems, -⟩ := exists_items h rfl
    rw [hlines] at hl
    exact ne_empty_of_items (.cons hitem hitems) l (List.mem_of_mem_getLast? hl)
  | ordered start items hne hshort =>
    obtain ⟨start, p, ps, l', more, ls, hlines, hitem, hitems, -⟩ := exists_items h rfl
    rw [hlines] at hl
    exact ne_empty_of_items (.cons hitem hitems) l (List.mem_of_mem_getLast? hl)
  | quote first rest =>
    obtain ⟨line, -, rfl⟩ := List.mem_map.mp (List.mem_of_mem_getLast? hl)
    exact quotedLine_ne_empty line
  | code language text =>
    rw [lines, List.getLast?_append] at hl
    obtain rfl := Option.some.inj hl
    decide

theorem getLast_linesAfter_ne (h : EachLegible bs) (isTaken : Bool) :
    ∀ l ∈ (linesAfter isTaken bs).getLast?, l ≠ "" := by
  induction bs generalizing isTaken with
  | nil => nofun
  | cons b bs ih =>
    obtain ⟨hb, -, hbs⟩ := h
    intro l hl
    rw [linesAfter, List.getLast?_append, List.getLast?_append] at hl
    cases hlast : (linesAfter false bs).getLast? with
    | some l' =>
      rw [hlast] at hl
      exact ih hbs false l (by rw [hlast]; exact hl)
    | none =>
      rw [hlast, Option.none_or] at hl
      cases hlast' : b.lines.getLast? with
      | some l' =>
        rw [hlast'] at hl
        exact getLast_lines_ne hb l (by rw [hlast']; exact hl)
      | none => exact absurd (List.getLast?_eq_none_iff.mp hlast') b.lines_ne_nil

theorem feed_not_mem (isTaken : Bool) (bs : List Block) :
    ∀ l ∈ linesAfter isTaken bs, '\n' ∉ l.toList := by
  induction bs generalizing isTaken with
  | nil => nofun
  | cons b bs ih =>
    intro l hl
    rw [linesAfter, List.mem_append, List.mem_append] at hl
    rcases hl with hl | hl | hl
    · cases isTaken
      · obtain rfl := List.mem_singleton.mp hl
        decide
      · cases hl
    · exact not_mem_of_mem_lines b l hl
    · exact ih false l hl

end Block

/-- The lines of prose are read as its blocks. -/
theorem readBlocks_markdown {ext : Extensions} {blocks : List Block} (h : Legible blocks) :
    readBlocks ext (markdown blocks).toList = Block.readAfter true blocks := by
  have hlines : textLines (markdown blocks).toList =
      (Block.linesAfter true blocks).map String.toList := by
    rw [markdown, Block.intercalate_lines]
    cases hblocks : Block.linesAfter true blocks with
    | nil => rfl
    | cons l ls =>
      rw [← hblocks]
      refine textLines_join (by rw [hblocks]; exact List.cons_ne_nil l ls) ?_
        (Block.getLast_linesAfter_ne h.each true)
      exact fun l hl => ⟨Block.feed_not_mem true blocks l hl,
        Block.return_not_mem_each blocks h.each true l hl⟩
  have hcursors : Lines ((textLines (markdown blocks).toList).map Cursor.ofLine)
      (Block.linesAfter true blocks) := by
    rw [hlines, List.map_map, Lines, List.forall₂_map_left_iff, List.forall₂_same]
    exact fun l _ => ⟨rfl, rfl⟩
  have hshallow := h.shallow
  have hread := Block.readableEach blocks 0 h.each (by omega)
  have hlength := hcursors.length_eq
  have hfuel : ((textLines (markdown blocks).toList).map Cursor.ofLine).length +
      ((Block.linesAfter true blocks).length + 4) * (Block.heightOfEach blocks + 1) ≤
        (BlockStart.maxDepth + 2) *
          (4 * ((textLines (markdown blocks).toList).map Cursor.ofLine).length + 4) := by
    rw [hlength]
    have hmul := Nat.mul_le_mul_left ((Block.linesAfter true blocks).length + 4)
      (Nat.add_le_add_right hshallow 1)
    simp only [BlockStart.maxDepth] at hmul ⊢
    omega
  unfold readBlocks
  dsimp only
  rw [(readsEach h.each hread fun b => Block.steps_le).1 true _ [] _ (fun _ => rfl) hfuel hcursors]
  simp

end AdfMarkdown.Prose
