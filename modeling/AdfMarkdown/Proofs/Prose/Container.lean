import AdfMarkdown.Proofs.Prose.Outline

/-! # Quotations and lists

A container takes the lines that are its own, up to an empty line. A list takes that line too, and
it goes on until something else than an item follows.
-/

namespace AdfMarkdown.Prose

open Markdown

variable {c : Cursor} {cs rest : List Cursor} {ls : List String}
variable {depth fuel : Nat} {acc : List Markdown.Block}

/-! ## Quotations -/

theorem take_quoted (depth : Nat) (h : Lines cs (ls.map quotedLine)) (hrest : Ends rest) :
    ∃ cs', Lines cs' ls ∧ Quotation.takeMarked (cs ++ rest) = ⟨cs', rest⟩ ∧
      ∀ afterBlank, Quotation.takeOpen depth afterBlank (cs ++ rest) = ⟨cs', rest⟩ := by
  induction ls generalizing cs with
  | nil =>
    cases h
    refine ⟨[], .nil, ?_, fun afterBlank => ?_⟩
    · cases rest with
      | nil => rfl
      | cons c rest =>
        have hquote := quote?_empty (hrest c rfl)
        simp [Quotation.takeMarked, hquote, Taken.nothing]
    · cases rest with
      | nil => rfl
      | cons c rest =>
        have hquote := quote?_empty (hrest c rfl)
        have hblank := (hrest c rfl).isBlankLine_eq_true
        simp [Quotation.takeOpen, hquote, hblank, Taken.nothing]
  | cons l ls ih =>
    cases h with
    | @cons c _ cs _ hc hcs =>
      obtain ⟨cs', hlines, hmarked, hopen⟩ := ih hcs
      obtain ⟨c', hquote, hc'⟩ := quote?_quotedLine hc
      refine ⟨c' :: cs', .cons hc' hlines, ?_, fun afterBlank => ?_⟩
      · rw [List.cons_append, Quotation.takeMarked, hquote]
        simp only [hmarked]
        rfl
      · rw [List.cons_append, Quotation.takeOpen, hquote]
        simp only [hopen]
        rfl

/-- A quotation is read from its lines without the sign. -/
theorem readBlock_quote (h : Lines (c :: cs) (ls.map quotedLine)) (hrest : Ends rest)
    (hdepth : depth < BlockStart.maxDepth) :
    ∃ first cs', Lines (first :: cs') ls ∧
      (∀ position, BlockStart.read? depth position c = some (.quote first)) ∧
      ∀ fuel acc, Progress.readBlock (fuel + 1) depth acc c (cs ++ rest) (.quote first) =
        ⟨.quote (Progress.readInside fuel (depth + 1) (first :: cs')) :: acc, rest⟩ := by
  cases ls with
  | nil => cases h
  | cons l ls =>
    cases h with
    | cons hc hcs =>
      obtain ⟨first, hquote, hfirst⟩ := quote?_quotedLine hc
      obtain ⟨cs', hlines, hmarked, hopen⟩ := take_quoted depth hcs hrest
      refine ⟨first, cs', .cons hfirst hlines, fun _ => read?_quote hquote hdepth, ?_⟩
      intro fuel acc
      have htake : Quotation.take depth first (cs ++ rest) = ⟨cs', rest⟩ := by
        rw [Quotation.take, hmarked, hopen, ite_self]
      rw [Progress.readBlock]
      simp only [htake]
      cases rest with
      | nil => rfl
      | cons next left => simp [(hrest next rfl).isBlankLine_eq_true]

/-! ## Lists -/

def IsItem (sign : ListSign) (number : Nat) (p : Phrase) (l : String) (more : List String) : Prop :=
  p.FitsItem ∧ ∃ marker first, Marks sign number marker ∧ l.toList = marker ++ ' ' :: first.toList ∧
    Text.lines p.markdown = first :: more

/-- The lines of a list are those of its items. -/
inductive ItemLines (sign : ListSign) : List Phrase → List String → Prop where
  | nil : ItemLines sign [] []
  | cons {number : Nat} {p : Phrase} {ps : List Phrase} {l : String} {more ls : List String}
    (hitem : IsItem sign number p l more) (hitems : ItemLines sign ps ls) :
    ItemLines sign (p :: ps) (l :: (more ++ ls))

/-- The item begins a phrase, which goes on in the given lines. -/
structure StartsItem (sign : ListSign) (p : Phrase) (item : ItemStart) (more : List Cursor) :
    Prop where
  sign : item.sign = sign
  width : 0 < item.width
  content : ∃ c, item.content = some c ∧ Lines (c :: more) (Text.lines p.markdown)
  fits : p.FitsItem

variable {sign : ListSign} {number start : Nat} {p : Phrase} {item : ItemStart}
variable {more : List Cursor}

theorem IsItem.unindented {l : String} (h : IsItem sign number p l ls) (hc : At c l.toList) :
    Unindented c := by
  obtain ⟨-, marker, first, hmarks, hl, -⟩ := h
  obtain ⟨d, t, rfl, hd⟩ := hmarks.exists_cons
  rw [hl, List.cons_append] at hc
  exact hc.unindented (isSpace_of_sign hd)

theorem IsItem.read? {l : String} (h : IsItem sign number p l ls) (hc : At c l.toList)
    (hmore : Lines more ls) (hdepth : depth < BlockStart.maxDepth) :
    ∃ item, StartsItem sign p item more ∧ item.number = number ∧ ∀ position,
      position ≠ .paragraph → BlockStart.read? depth position c = some (.item item) := by
  obtain ⟨hp, marker, first, hmarks, hl, hlines⟩ := h
  have hopens := hp.opensText first (hlines ▸ List.mem_cons_self)
  rw [hl] at hc
  obtain ⟨content, hcontent, hitem⟩ := item?_eq hmarks hopens hc
  exact ⟨_, ⟨rfl, Nat.succ_pos _, ⟨content, rfl, hlines ▸ .cons hcontent hmore⟩, hp⟩, rfl,
    fun position hposition => read?_item hmarks hopens hdepth hposition hc hitem⟩

theorem takeFrom_text (h : Lines more ls) (hopens : ∀ l ∈ ls, opensText l.toList = true)
    (hwidth : 0 < item.width) :
    item.takeFrom depth false true (more ++ rest) =
      ⟨more ++ (item.takeFrom depth false true rest).lines,
        (item.takeFrom depth false true rest).left⟩ := by
  induction h with
  | nil => rfl
  | @cons c l more ls hc _ ih =>
    rw [List.forall_mem_cons] at hopens
    obtain ⟨⟨hfilled, hindent⟩, hread⟩ := hc.starts_nothing hopens.1
    have hbeside : item.beside? depth c = none := by
      rw [ItemStart.beside?, hindent, if_neg (Nat.not_lt_zero _), hread]
    rw [List.cons_append, ItemStart.takeFrom, hfilled, hindent, hbeside]
    simp [Nat.not_le.mpr hwidth, ih hopens.2, Taken.cons]

theorem StartsItem.take_eq (h : StartsItem sign p item more) (depth : Nat) (rest : List Cursor) :
    item.take depth (more ++ rest) = ⟨more ++ (item.takeFrom depth false true rest).lines,
      (item.takeFrom depth false true rest).left⟩ := by
  obtain ⟨c, hc, hlines⟩ := h.content
  have hopens := h.fits.opensText
  rw [ItemStart.take, hc]
  revert hlines hopens
  cases Text.lines p.markdown with
  | nil => nofun
  | cons l ls =>
    intro hlines hopens
    cases hlines with
    | cons _ hmore =>
      exact takeFrom_text hmore (fun l hl => hopens l (List.mem_cons_of_mem _ hl)) h.width

/-- The text of an item is read as its only block, also where a blank line comes with it. -/
theorem readInside_item (h : StartsItem sign p item more) {t : Taken} {blank : List Cursor}
    (ht : t.lines = more ++ blank) (hblank : ∀ c ∈ blank, At c [])
    (hfuel : more.length + 3 ≤ fuel) :
    Progress.readInside fuel depth (item.lines t) = p.readItem := by
  obtain ⟨content, hcontent, hlines⟩ := h.content
  have hall : ∀ d ∈ blank, Text.isSpaces d.text = true := fun d hd => by
    rw [(hblank d hd).text]
    rfl
  have hlast : ∀ d ∈ more.getLast?, Text.isSpaces d.text = false := fun d hd => by
    obtain ⟨l, hl, hd⟩ := hlines.exists_of_mem (List.mem_cons_of_mem _ (List.mem_of_getLast? hd))
    obtain ⟨_, _, hs, hspace⟩ := exists_cons_of_opensText (h.fits.opensText l hl)
    rw [hs] at hd
    simp [Text.isSpaces, hd.text, hspace]
  have htaken : item.lines t = content :: more := by
    rw [ItemStart.lines, hcontent, ht]
    simp [Text.trimRight_append hall, Text.trimRight_eq_self hlast]
  obtain ⟨f, rfl⟩ : ∃ f, fuel = f + (content :: more).length + 1 :=
    ⟨fuel - (more.length + 2), by rw [List.length_cons]; omega⟩
  have hread : Progress.readAll false (f + (content :: more).length) depth []
      (content :: more ++ []) =
        Progress.readAll false f depth [.paragraph (chars p.runs ++ ['\n'])] [] :=
    readAll_paragraph h.fits.toFlows hlines (fun _ h => by cases h) rfl
  rw [List.append_nil, readAll_nil] at hread
  rw [htaken, Progress.readInside]
  exact congrArg List.reverse hread

theorem readItems_next (h : StartsItem sign p item more) {p' : Phrase} {next : ItemStart}
    {more' : List Cursor} (hnext : StartsItem sign p' next more') {l : String}
    (hl : IsItem sign number p' l ls) (hc : At c l.toList)
    (hread : BlockStart.read? depth .beside c = some (.item next))
    (done : List (List Markdown.Block)) (hfuel : more.length + 3 ≤ fuel) :
    Progress.readItems (fuel + 1) depth acc sign start done item (more ++ c :: rest) =
      Progress.readItems fuel depth acc sign start (p.readItem :: done) next rest := by
  obtain ⟨hblank, hindent⟩ := hl.unindented hc
  have hbeside : item.beside? depth c = some (.item next) := by
    rw [ItemStart.beside?, hindent, if_neg (Nat.not_lt_zero _), hread]
  have hwidth : ¬ item.width ≤ 0 := Nat.not_le.mpr h.width
  have htake : item.take depth (more ++ c :: rest) = ⟨more ++ [], c :: rest⟩ := by
    rw [h.take_eq, ItemStart.takeFrom, hblank, hindent, hbeside]
    simp [hwidth, Taken.nothing]
  rw [Progress.readItems]
  have hinside : Progress.readInside fuel (depth + 1) (item.lines ⟨more ++ [], c :: rest⟩) =
      p.readItem := readInside_item h rfl (by simp) hfuel
  simp only [htake, hinside, hbeside, hnext.sign, if_pos]

theorem take_last (depth : Nat) (h : StartsItem sign p item more) (hrest : Ends rest)
    (hnext : ∀ c ∈ rest.tail.head?, Unindented c) :
    ∃ blank, (∀ c ∈ blank, At c []) ∧
      item.take depth (more ++ rest) = ⟨more ++ blank, rest.tail⟩ := by
  have hwidth : ¬ item.width ≤ 0 := Nat.not_le.mpr h.width
  have hempty : At (.ofLine []) [] := ⟨rfl, rfl⟩
  rw [h.take_eq]
  cases rest with
  | nil => exact ⟨[], by simp, by simp [ItemStart.takeFrom, Taken.nothing]⟩
  | cons c rest =>
    have hblank := (hrest c rfl).isBlankLine_eq_true
    refine ⟨[.ofLine []], by simpa using hempty, ?_⟩
    rw [ItemStart.takeFrom, if_pos hblank]
    cases rest with
    | nil => simp [ItemStart.takeFrom, Taken.nothing, Taken.cons]
    | cons c' rest =>
      obtain ⟨hfilled, hindent⟩ := hnext c' rfl
      rw [ItemStart.takeFrom, hfilled, hindent]
      simp [hwidth, Taken.nothing, Taken.cons]

theorem readItems_last (h : StartsItem sign p item more) (hrest : Ends rest)
    (hnext : ∀ c ∈ rest.tail.head?, Unindented c ∧
      (BlockStart.read? depth .beside c = none ∨ ∃ next, next.sign ≠ sign ∧
        BlockStart.read? depth .beside c = some (.item next)))
    (done : List (List Markdown.Block)) (hfuel : more.length + 3 ≤ fuel) :
    Progress.readItems (fuel + 1) depth acc sign start done item (more ++ rest) =
      ⟨.list sign start (p.readItem :: done).reverse :: acc, rest.tail⟩ := by
  obtain ⟨blank, hblank, htake⟩ := take_last depth h hrest fun c hc => (hnext c hc).1
  have hinside : Progress.readInside fuel (depth + 1) (item.lines ⟨more ++ blank, rest.tail⟩) =
      p.readItem := readInside_item h rfl hblank hfuel
  rw [Progress.readItems]
  simp only [htake, hinside]
  cases htail : rest.tail with
  | nil => rfl
  | cons c left =>
    obtain ⟨⟨-, hindent⟩, hread⟩ := hnext c (by rw [htail]; rfl)
    have hbeside : item.beside? depth c = BlockStart.read? depth .beside c := by
      rw [ItemStart.beside?, hindent, if_neg (Nat.not_lt_zero _)]
    rcases hread with hread | ⟨next, hsign, hread⟩
    · simp only [hbeside, hread]
    · simp only [hbeside, hread, if_neg hsign]

/-- A block that ends a list is read before the list is noted. -/
theorem readItems_block (h : StartsItem sign p item more) (hrest : Ends rest)
    {left : List Cursor} (htail : rest.tail = c :: left) (hc : Unindented c)
    {s : BlockStart} (hread : BlockStart.read? depth .beside c = some s)
    (hs : ∀ next, s ≠ .item next) {b : Markdown.Block} {rest' : List Cursor}
    (hblock : Progress.readBlock fuel depth acc c left s = ⟨b :: acc, rest'⟩)
    (done : List (List Markdown.Block)) (hfuel : more.length + 3 ≤ fuel) :
    Progress.readItems (fuel + 1) depth acc sign start done item (more ++ rest) =
      ⟨b :: .list sign start (p.readItem :: done).reverse :: acc, rest'⟩ := by
  obtain ⟨blank, hblank, htake⟩ := take_last depth h hrest fun c' hc' => by
    rw [htail] at hc'
    obtain rfl : c = c' := by simpa using hc'
    exact hc
  have hbeside : item.beside? depth c = some s := by
    rw [ItemStart.beside?, hc.2, if_neg (Nat.not_lt_zero _), hread]
  have hinsert : Markdown.Block.insertAfter acc.length
      (.list sign start (p.readItem :: done).reverse) (b :: acc) =
        b :: .list sign start (p.readItem :: done).reverse :: acc := by
    simp [Markdown.Block.insertAfter]
  have hinside : Progress.readInside fuel (depth + 1) (item.lines ⟨more ++ blank, c :: left⟩) =
      p.readItem := readInside_item h rfl hblank hfuel
  rw [Progress.readItems]
  simp only [htake, htail, hinside, hbeside]
  cases s with
  | item next => exact absurd rfl (hs next)
  | _ => simp only [hblock, hinsert]

theorem readItems_eq (start : Nat) {ps : List Phrase} (hps : ItemLines sign ps ls)
    (h : StartsItem sign p item more) (hcs : Lines cs ls) (hdepth : depth < BlockStart.maxDepth) :
    ∃ p' ps' last more', StartsItem sign p' last more' ∧ p :: ps = ps' ++ [p'] ∧
      more'.length + ps.length ≤ more.length + cs.length ∧
      ∀ fuel acc done rest, more.length + cs.length + 4 ≤ fuel →
        Progress.readItems fuel depth acc sign start done item (more ++ (cs ++ rest)) =
          Progress.readItems (fuel - ps.length) depth acc sign start
            ((ps'.map Phrase.readItem).reverse ++ done) last (more' ++ rest) := by
  induction hps generalizing p item more cs with
  | nil =>
    cases hcs
    exact ⟨p, [], item, more, h, rfl, le_rfl, fun _ _ _ _ _ => rfl⟩
  | @cons _ p₁ ps l ls₁ ls hitem _ ih =>
    cases hcs with
    | @cons c _ cs _ hc hcs =>
      obtain ⟨more₁, cs, rfl, hmore₁, hcs⟩ := Lines.of_append ls₁ hcs
      obtain ⟨next, hnext, -, hread⟩ := hitem.read? hc hmore₁ hdepth
      obtain ⟨p', ps', last, more', hlast, hsplit, hlength, heq⟩ := ih hnext hcs
      rw [List.length_cons, List.length_cons, List.length_append]
      refine ⟨p', p :: ps', last, more', hlast, by rw [hsplit]; rfl, by omega, ?_⟩
      intro fuel acc done rest hfuel
      obtain ⟨f, rfl⟩ : ∃ f, fuel = f + 1 := ⟨fuel - 1, by omega⟩
      rw [List.cons_append, List.append_assoc,
        readItems_next h hnext hitem hc (hread .beside (by decide)) done (by omega),
        heq f acc _ rest (by omega), Nat.add_sub_add_right]
      simp

theorem isItem_bullet (hp : p.FitsItem) :
    ∃ l more, Text.lines ("- " ++ p.markdown) = l :: more ∧ IsItem (.bullet '-') 1 p l more := by
  obtain ⟨first, more, hlines⟩ := List.exists_cons_of_ne_nil (Text.lines_ne_nil p.markdown)
  refine ⟨_, more, Text.lines_append (by decide) hlines, hp, _, first, .bullet, ?_, hlines⟩
  exact String.toList_append

theorem isItem_number (hp : p.FitsItem) {n : Nat} (hn : n < 1000000000) :
    ∃ l more, Text.lines (toString n ++ ". " ++ p.markdown) = l :: more ∧
      IsItem (.number '.') n p l more := by
  obtain ⟨first, more, hlines⟩ := List.exists_cons_of_ne_nil (Text.lines_ne_nil p.markdown)
  have hone : '\n' ∉ (toString n ++ ". ").toList := not_mem_number (by decide) (by decide) n
  refine ⟨_, more, Text.lines_append hone hlines, hp, _, first, .number hn, ?_, hlines⟩
  simp

theorem itemLines_bullets {ps : List Phrase} (h : ∀ p ∈ ps, p.FitsItem) :
    ItemLines (.bullet '-') ps (ps.flatMap fun p => Text.lines ("- " ++ p.markdown)) := by
  induction ps with
  | nil => exact .nil
  | cons p ps ih =>
    rw [List.forall_mem_cons] at h
    obtain ⟨l, more, hl, hitem⟩ := isItem_bullet h.1
    rw [List.flatMap_cons, hl]
    exact .cons hitem (ih h.2)

theorem itemLines_numbers {ps : List Phrase} (h : ∀ p ∈ ps, p.FitsItem) {n : Nat}
    (hn : n + ps.length ≤ 1000000000) :
    ItemLines (.number '.') ps
      ((ps.zipIdx n).flatMap fun (p, n) => Text.lines (toString n ++ ". " ++ p.markdown)) := by
  induction ps generalizing n with
  | nil => exact .nil
  | cons p ps ih =>
    rw [List.forall_mem_cons] at h
    rw [List.length_cons] at hn
    obtain ⟨l, more, hl, hitem⟩ := isItem_number h.1 (n := n) (by omega)
    rw [List.zipIdx_cons, List.flatMap_cons]
    dsimp only
    rw [hl]
    exact .cons hitem (ih h.2 (by omega))

theorem exists_items {b : Block} (hb : b.Legible) (hsign : b.listSign? = some sign) :
    ∃ start p ps l more ls, b.lines = l :: (more ++ ls) ∧ IsItem sign start p l more ∧
      ItemLines sign ps ls ∧ b.read = .list sign start ((p :: ps).map Phrase.readItem) := by
  cases b with
  | bullet items hne =>
    cases hsign
    obtain ⟨p, ps, rfl⟩ := List.exists_cons_of_ne_nil hne
    have hps := List.forall_mem_cons.mp hb
    obtain ⟨l, more, hl, hitem⟩ := isItem_bullet hps.1
    refine ⟨1, p, ps, l, more, _, ?_, hitem, itemLines_bullets hps.2, rfl⟩
    rw [Block.lines, List.flatMap_cons, hl]
    rfl
  | ordered start items hne hshort =>
    cases hsign
    obtain ⟨p, ps, rfl⟩ := List.exists_cons_of_ne_nil hne
    have hps := List.forall_mem_cons.mp hb
    rw [List.length_cons] at hshort
    obtain ⟨l, more, hl, hitem⟩ := isItem_number hps.1 (n := start) (by omega)
    refine ⟨start, p, ps, l, more, _, ?_, hitem,
      itemLines_numbers hps.2 (n := start + 1) (by omega), rfl⟩
    rw [Block.lines, List.zipIdx_cons, List.flatMap_cons]
    dsimp only
    rw [hl]
    rfl
  | _ => cases hsign

/-- A list is read up to its last item, in a step for each. -/
theorem readBlock_list {b : Block} (hb : b.Legible) (hsign : b.listSign? = some sign)
    (h : Lines cs b.lines) (hdepth : depth < BlockStart.maxDepth) :
    ∃ c cs' item, cs = c :: cs' ∧ Unindented c ∧ item.sign = sign ∧
      (∀ position, position ≠ .paragraph → BlockStart.read? depth position c = some (.item item)) ∧
      ∃ start p done last more steps, StartsItem sign p last more ∧
        b.read = .list sign start (p.readItem :: done).reverse ∧
        more.length + steps < cs.length ∧
        ∀ fuel acc rest, Markdown.Block.endsInParagraph acc = false → cs.length + 4 ≤ fuel →
          Progress.readBlock fuel depth acc c (cs' ++ rest) (.item item) =
            Progress.readItems (fuel - 1 - steps) depth acc sign start done last
              (more ++ rest) := by
  obtain ⟨start, p, ps, l, ls₁, ls, hlines, hitem, hps, hread⟩ := exists_items hb hsign
  rw [hlines] at h
  cases h with
  | @cons c _ cs _ hc hcs =>
    obtain ⟨more, cs, rfl, hmore, hcs⟩ := Lines.of_append ls₁ hcs
    obtain ⟨item, hstarts, hnumber, hitem'⟩ := hitem.read? hc hmore hdepth
    refine ⟨c, more ++ cs, item, rfl, hitem.unindented hc, hstarts.sign, hitem', ?_⟩
    obtain ⟨p', ps', last, more', hlast, hsplit, hlength, heq⟩ :=
      readItems_eq start hps hstarts hcs hdepth
    refine ⟨start, p', (ps'.map Phrase.readItem).reverse, last, more', ps.length, hlast, ?_, ?_, ?_⟩
    · rw [hread, hsplit]
      simp
    · rw [List.length_cons, List.length_append]
      omega
    · intro fuel acc rest hacc hfuel
      rw [List.length_cons, List.length_append] at hfuel
      obtain ⟨f, rfl⟩ : ∃ f, fuel = f + 1 := ⟨fuel - 1, by omega⟩
      rw [Progress.readBlock]
      simp only [hacc, Bool.false_and, Bool.false_eq_true, if_false, hstarts.sign, hnumber]
      rw [List.append_assoc, heq f acc [] rest (by omega), List.append_nil, Nat.add_sub_cancel]

end AdfMarkdown.Prose
