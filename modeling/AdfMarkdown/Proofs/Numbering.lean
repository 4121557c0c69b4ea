import AdfMarkdown.Proofs.Loading
import AdfMarkdown.Proofs.Reading
import AdfMarkdown.Proofs.Renderable
import AdfMarkdown.Proofs.Reporting

/-! # Rendering a loaded document

Rendering fails at a block that it comes to, for a reason of that block alone. In a document that is
read, the only such reason is a list that counts on to a number of too many digits, from a first
number that has few enough.
-/

namespace AdfMarkdown

theorem eq_longNumber_of_numberItems {items : List String} : ∀ {first : Int} {e : RenderError},
    numberItems first items = .error e → e = .longNumber := by
  induction items with
  | nil =>
    intro first e h
    cases h
  | cons item rest ih =>
    intro first e h
    rcases exists_of_bind_eq_error h with hnumber | ⟨number, -, h⟩
    · unfold itemNumber at hnumber
      split at hnumber
      · cases hnumber
      · exact (Except.error.inj hnumber).symm
    · rcases exists_of_bind_eq_error h with hrest | ⟨lines, -, h⟩
      · exact ih hrest
      · cases h

namespace Node

section Lists

theorem exists_of_renderBlocks_eq_ok {xs : List Node} {parts : List String}
    (h : renderBlocks xs = .ok parts) :
    parts.length = xs.length ∧ ∀ x ∈ xs, ∃ s, renderBlock x = .ok s := by
  have hall := renderBlocks_eq_ok_iff.mp h
  refine ⟨hall.length_eq.symm, fun x hx => ?_⟩
  obtain ⟨i, hi, rfl⟩ := List.mem_iff_getElem.mp hx
  exact ⟨_, hall.get hi (hall.length_eq ▸ hi)⟩

theorem exists_of_renderBlocks_eq_error {xs : List Node} {e : RenderError}
    (h : renderBlocks xs = .error e) : ∃ x ∈ xs, renderBlock x = .error e := by
  induction xs with
  | nil =>
    rw [renderBlocks] at h
    cases h
  | cons x xs ih =>
    rw [renderBlocks] at h
    rcases exists_of_bind_eq_error h with hx | ⟨part, -, h⟩
    · exact ⟨x, List.mem_cons_self, hx⟩
    · rcases exists_of_bind_eq_error h with hxs | ⟨parts, -, h⟩
      · obtain ⟨y, hy, hfails⟩ := ih hxs
        exact ⟨y, List.mem_cons_of_mem x hy, hfails⟩
      · cases h

end Lists

section Reached

theorem reaches_block_of_list {x y : Node} (h : x.Reaches .list .block y) :
    x.isItem = true ∧ x.Reaches .block .block y := by
  rcases Place.reaches_iff.mp h with ⟨hplace, -⟩ | ⟨q, hopens, z, hz, h⟩
  · cases hplace
  · cases x with
    | foreign name => cases hopens
    | known kind content attrs text marks =>
      cases kind with
      | listItem =>
        obtain rfl := Option.some.inj hopens
        exact ⟨rfl, .child rfl hz h⟩
      | _ => cases hopens

theorem not_reaches_block {p : Place} (hp : p = .line ∨ p = .code) {x y : Node} :
    ¬ x.Reaches p .block y := by
  intro h
  rcases Place.reaches_iff.mp h with ⟨rfl, -⟩ | ⟨q, hopens, -, -, -⟩
  · rcases hp with hp | hp <;> cases hp
  · cases x with
    | foreign name => cases hopens
    | known kind content attrs text marks =>
      rcases hp with rfl | rfl <;> cases kind <;> cases hopens

/-- What is wrong with a block of its own: its attributes, or a number that it counts on to. -/
def Fails (e : RenderError) : Node → Prop
  | known .heading _ attrs _ _ => levelOf attrs = .error e
  | known .orderedList content attrs _ _ =>
    orderOf attrs = .error e ∨ ∃ first, orderOf attrs = .ok first ∧ e = .longNumber ∧
      ∃ i < (content.filter isItem).length, Nat.pow 10 Json.maxDigits ≤ (first + i).natAbs
  | _ => False

theorem eq_longNumber_of_fails {y : Node} {e : RenderError} (hread : WellFormed y)
    (h : Fails e y) : e = .longNumber := by
  cases y with
  | foreign name => exact h.elim
  | known kind content attrs text marks =>
    cases kind with
    | heading =>
      obtain ⟨-, ⟨n, -, -, rfl⟩, -⟩ := hread
      have hlevel : levelOf [("level", .int n)] = .error e := h
      cases hlevel
    | orderedList =>
      rcases h with horder | ⟨first, -, he, -⟩
      · obtain ⟨-, rfl | ⟨n, rfl⟩, -⟩ := hread
        · have hone : orderOf [] = .error e := horder
          cases hone
        · have hfirst : orderOf [("order", .int n)] = .error e := horder
          cases hfirst
      · exact he
    | _ => exact h.elim

/-- A block that does not render comes to one at which rendering fails. -/
theorem exists_of_renderBlock_eq_error (x : Node) : ∀ {e : RenderError},
    renderBlock x = .error e → ∃ y, x.Reaches .block .block y ∧ Fails e y := by
  induction x using Node.induct with
  | step x ih =>
    intro e h
    cases x with
    | foreign name =>
      rw [renderBlock] at h
      cases h
    | known kind content attrs text marks =>
      have hblocks (hopens : Place.opens? .block (some kind) = some .block)
          (h : renderBlocks content = .error e) :
          ∃ y, (known kind content attrs text marks).Reaches .block .block y ∧ Fails e y := by
        obtain ⟨z, hz, hfails⟩ := exists_of_renderBlocks_eq_error h
        obtain ⟨y, hreach, hy⟩ := ih z hz hfails
        exact ⟨y, .child hopens hz hreach, hy⟩
      have hitems (hopens : Place.opens? .block (some kind) = some .list)
          (h : renderItems content = .error e) :
          ∃ y, (known kind content attrs text marks).Reaches .block .block y ∧ Fails e y := by
        rw [renderItems_eq] at h
        obtain ⟨z, hz, hfails⟩ := exists_of_renderBlocks_eq_error h
        rw [List.mem_filter] at hz
        obtain ⟨y, hreach, hy⟩ := ih z hz.1 hfails
        rcases reaches_list_of_isItem hz.2 hreach with rfl | hreach
        · obtain ⟨content', attrs', text', marks', rfl⟩ := exists_of_isItem hz.2
          exact hy.elim
        · exact ⟨y, .child hopens hz.1 hreach, hy⟩
      cases kind with
      | paragraph | codeBlock | hardBreak | doc | text =>
        rw [renderBlock] at h
        cases h
      | heading =>
        rw [renderBlock] at h
        rcases exists_of_bind_eq_error h with hlevel | ⟨level, -, h⟩
        · exact ⟨_, .self .block _, hlevel⟩
        · cases h
      | bulletList =>
        rw [renderBlock] at h
        rcases exists_of_bind_eq_error h with h | ⟨items, -, h⟩
        · exact hitems rfl h
        · cases h
      | listItem | blockquote =>
        rw [renderBlock] at h
        rcases exists_of_bind_eq_error h with h | ⟨parts, -, h⟩
        · exact hblocks rfl h
        · cases h
      | orderedList =>
        rw [renderBlock] at h
        rcases exists_of_bind_eq_error h with h | ⟨items, hok, h⟩
        · exact hitems rfl h
        · rcases exists_of_bind_eq_error h with horder | ⟨first, horder, h⟩
          · exact ⟨_, .self .block _, .inl horder⟩
          · rcases exists_of_bind_eq_error h with hnumbers | ⟨lines, -, h⟩
            · refine ⟨_, .self .block _,
                .inr ⟨first, horder, eq_longNumber_of_numberItems hnumbers, ?_⟩⟩
              rw [renderItems_eq] at hok
              obtain ⟨hlength, -⟩ := exists_of_renderBlocks_eq_ok hok
              by_contra hfew
              push Not at hfew
              cases hnumbers.symm.trans (numberItems_eq_ok_iff.mpr ⟨hlength ▸ hfew, rfl⟩)
            · cases h

theorem renders_of_renderBlock_eq_ok (x : Node) : ∀ {s : String}, renderBlock x = .ok s →
    ∀ y, x.Reaches .block .block y → Renders y := by
  induction x using Node.induct with
  | step x ih =>
    intro s h y hreach
    cases x with
    | foreign name =>
      rcases Place.reaches_iff.mp hreach with ⟨-, rfl⟩ | ⟨q, hopens, -⟩
      · trivial
      · cases hopens
    | known kind content attrs text marks =>
      rw [renderBlock.eq_def] at h
      have hblocks {parts : List String} (hparts : renderBlocks content = .ok parts) :
          ∀ z ∈ content, z.Reaches .block .block y → Renders y := by
        intro z hz hreach
        obtain ⟨t, ht⟩ := (exists_of_renderBlocks_eq_ok hparts).2 z hz
        exact ih z hz ht y hreach
      have hitems {items : List String} (hitems : renderItems content = .ok items) :
          ∀ z ∈ content, z.Reaches .list .block y → Renders y := by
        intro z hz hreach
        obtain ⟨hitem, hreach⟩ := reaches_block_of_list hreach
        rw [renderItems_eq] at hitems
        have hmem : z ∈ content.filter isItem := List.mem_filter.mpr ⟨hz, hitem⟩
        obtain ⟨t, ht⟩ := (exists_of_renderBlocks_eq_ok hitems).2 z hmem
        exact ih z hz ht y hreach
      rcases Place.reaches_iff.mp hreach with ⟨-, rfl⟩ | ⟨q, hopens, z, hz, hreach⟩
      · cases kind with
        | heading =>
          obtain ⟨level, hlevel, -⟩ := exists_of_bind_eq_ok h
          exact ⟨level, hlevel⟩
        | orderedList =>
          obtain ⟨items, hok, h⟩ := exists_of_bind_eq_ok h
          obtain ⟨first, horder, h⟩ := exists_of_bind_eq_ok h
          obtain ⟨lines, hlines, -⟩ := exists_of_bind_eq_ok h
          rw [renderItems_eq] at hok
          obtain ⟨hlength, -⟩ := exists_of_renderBlocks_eq_ok hok
          exact ⟨first, horder, hlength ▸ (numberItems_eq_ok_iff.mp hlines).1⟩
        | _ => trivial
      · cases kind with
        | paragraph | heading =>
          obtain rfl := Option.some.inj hopens
          exact absurd hreach (not_reaches_block (.inl rfl))
        | codeBlock =>
          obtain rfl := Option.some.inj hopens
          exact absurd hreach (not_reaches_block (.inr rfl))
        | bulletList | orderedList =>
          obtain rfl := Option.some.inj hopens
          obtain ⟨items, hok, -⟩ := exists_of_bind_eq_ok h
          exact hitems hok z hz hreach
        | listItem | blockquote =>
          obtain rfl := Option.some.inj hopens
          obtain ⟨parts, hok, -⟩ := exists_of_bind_eq_ok h
          exact hblocks hok z hz hreach
        | hardBreak | doc | text => cases hopens

theorem exists_renderBlocks_iff {xs : List Node} :
    (∃ parts, renderBlocks xs = .ok parts) ↔
      ∀ x ∈ xs, ∀ y, x.Reaches .block .block y → Renders y := by
  constructor
  · rintro ⟨parts, hparts⟩ x hx
    obtain ⟨s, hs⟩ := (exists_of_renderBlocks_eq_ok hparts).2 x hx
    exact renders_of_renderBlock_eq_ok x hs
  · intro h
    obtain ⟨parts, hparts, -⟩ := exists_renderBlocks fun x hx =>
      exists_renderBlock_of_reaches x (h x hx)
    exact ⟨parts, hparts⟩

end Reached

end Node

namespace Fields

/-- The number of the first item of an ordered list, as reading takes it from the attributes. -/
def firstNumber (fields : Fields) : Int :=
  (((get? "attrs" fields).bind (Json.get? "order")).bind listOrder?).getD 1

def itemCount (fields : Fields) : Nat :=
  ((contents fields).filter fun f => kind? f = some .listItem).length

theorem length_filter_isItem (fields : Fields) :
    ((Node.contentOfFields fields).filter Node.isItem).length = itemCount fields := by
  have hitem (f : Fields) : (Node.ofFields f).isItem = decide (kind? f = some .listItem) := by
    rw [← Node.kind?_ofFields]
    cases Node.ofFields f with
    | foreign name => rfl
    | known kind content attrs text marks => cases kind <;> rfl
  rw [Node.contentOfFields_eq_map, List.filter_map, List.length_map, itemCount]
  exact congrArg List.length (List.filter_congr fun f _ => hitem f)

theorem orderOf_attributesFor_eq (attrs : Json) :
    orderOf (attributesFor .orderedList attrs) =
      .ok (((attrs.get? "order").bind listOrder?).getD 1) := by
  rw [attributesFor]
  cases (attrs.get? "order").bind listOrder? <;> rfl

theorem firstNumber_eq (fields : Fields) :
    firstNumber fields =
      (((((get? "attrs" fields).getD .null).get? "order").bind listOrder?).getD 1) := by
  rw [firstNumber]
  cases get? "attrs" fields <;> rfl

theorem ofFields_of_kind? {fields : Fields} (h : kind? fields = some .orderedList) :
    Node.ofFields fields = .branch .orderedList (Node.contentOfFields fields)
      (attributesFor .orderedList ((get? "attrs" fields).getD .null)) := by
  have hname : NodeKind.ofName? (((get? "type" fields).bind Json.text?).getD "unknown") =
      some .orderedList := h
  rw [Node.ofFields, Node.assemble, hname]

theorem renders_orderedList_iff {fields : Fields} (h : kind? fields = some .orderedList) :
    Node.Renders (Node.ofFields fields) ↔
      ∀ i < itemCount fields, (firstNumber fields + i).natAbs < Nat.pow 10 Json.maxDigits := by
  rw [ofFields_of_kind? h]
  have horder := orderOf_attributesFor_eq ((get? "attrs" fields).getD .null)
  rw [← firstNumber_eq] at horder
  constructor
  · rintro ⟨first, hfirst, hnumbers⟩
    obtain rfl := Except.ok.inj (horder.symm.trans hfirst)
    rwa [length_filter_isItem] at hnumbers
  · intro hnumbers
    refine ⟨firstNumber fields, horder, ?_⟩
    rwa [length_filter_isItem]

theorem renders_of_kind?_ne {fields : Fields} (h : kind? fields ≠ some .orderedList) :
    Node.Renders (Node.ofFields fields) := by
  have hkind := Node.kind?_ofFields fields
  have hread := Node.everywhere_wellFormed_ofFields fields _ (.self _)
  cases hnode : Node.ofFields fields with
  | foreign name => trivial
  | known kind content attrs text marks =>
    rw [hnode] at hkind hread
    cases kind with
    | heading =>
      obtain ⟨-, ⟨n, -, -, rfl⟩, -⟩ := hread
      exact ⟨n, rfl⟩
    | orderedList => exact absurd hkind.symm h
    | _ => trivial

theorem shortFields_of_mem_contents {fields f : Fields} (h : Json.ShortFields fields)
    (hf : f ∈ contents fields) : Json.ShortFields f := by
  unfold contents at hf
  split at hf
  · next items hitems =>
    obtain ⟨v, hv, hobject⟩ := List.mem_filterMap.mp hf
    have hshort : Json.Short (.array items) := Json.Short.get? h hitems
    have hvalue := Json.shortItems_iff.mp hshort v hv
    cases v with
    | object g => exact Option.some.inj hobject ▸ hvalue
    | _ => cases hobject
  · cases hf

theorem shortFields_of_standsIn {root f : Fields} {p : Place} (h : Json.ShortFields root)
    (hf : StandsIn root p f) : Json.ShortFields f := by
  obtain ⟨top, htop, hreach⟩ := hf
  have hbelow {p q : Place} {f g : Fields} (hreach : Place.Reaches kind? contents p f q g) :
      Json.ShortFields f → Json.ShortFields g := by
    induction hreach with
    | self => exact id
    | child _ hy _ ih => exact fun hf => ih (shortFields_of_mem_contents hf hy)
  exact hbelow hreach (shortFields_of_mem_contents h htop)

theorem nonneg_of_listOrder? {v : Json} {n : Int} (h : listOrder? v = some n) : 0 ≤ n := by
  obtain ⟨k, rfl⟩ := Node.exists_of_listOrder? h
  exact Int.natCast_nonneg k

theorem fewDigits_of_listOrder? {v : Json} {n : Int} (hv : v.Short) (h : listOrder? v = some n) :
    Json.FewDigits n := by
  have hmax {m : Int} (hm : Json.FewDigits m) : Json.FewDigits (max 0 m) :=
    Nat.lt_of_le_of_lt (by omega) hm
  cases v with
  | int m =>
    obtain rfl := Option.some.inj h
    exact hmax hv
  | float x =>
    obtain ⟨m, hm, rfl⟩ := Option.map_eq_some_iff.mp h
    exact hmax (hv m hm)
  | _ => cases h

/-- In a value that is read, the first number of a list has few enough digits. -/
theorem firstNumber_mem_range {fields : Fields} (h : Json.ShortFields fields) :
    0 ≤ firstNumber fields ∧ Json.FewDigits (firstNumber fields) := by
  unfold firstNumber
  cases horder : ((get? "attrs" fields).bind (Json.get? "order")).bind listOrder? with
  | none => exact ⟨by decide, Nat.lt_of_lt_of_le (by decide) le_pow_maxDigits⟩
  | some n =>
    obtain ⟨v, hv, hn⟩ := Option.bind_eq_some_iff.mp horder
    obtain ⟨attrs, hattrs, hv⟩ := Option.bind_eq_some_iff.mp hv
    have hshort : v.Short := by
      have hattrs : attrs.Short := Json.Short.get? h hattrs
      cases attrs with
      | object g => exact Json.Short.get? hattrs hv
      | _ => cases hv
    exact ⟨nonneg_of_listOrder? hn, fewDigits_of_listOrder? hshort hn⟩

end Fields

namespace Rendering

open Fields

theorem exists_ofJson_iff {root : Fields} :
    (∃ r, ofJson (.object root) = .ok r) ↔
      ∀ f, StandsIn root .block f → Node.Renders (Node.ofFields f) := by
  have hblocks : (∃ r, ofJson (.object root) = .ok r) ↔
      ∃ parts, Node.renderBlocks (Node.contentOfFields root) = .ok parts := by
    constructor
    · rintro ⟨r, hr⟩
      obtain ⟨parts, hparts, -⟩ := exists_of_bind_eq_ok hr
      exact ⟨parts, hparts⟩
    · rintro ⟨parts, hparts⟩
      exact ⟨_, by rw [ofJson, ofBlocks, hparts]; rfl⟩
  rw [hblocks, Node.exists_renderBlocks_iff, Node.contentOfFields_eq_map, List.forall_mem_map]
  constructor
  · rintro h f ⟨top, htop, hreach⟩
    exact h top htop _ (Node.reaches_ofFields_iff.mpr ⟨f, rfl, hreach⟩)
  · intro h top htop y hreach
    obtain ⟨f, rfl, hf⟩ := Node.reaches_ofFields_iff.mp hreach
    exact h f ⟨top, htop, hf⟩

/-- Reading brings every attribute into range, so only a number can be in the way of rendering. -/
theorem eq_longNumber_of_ofJson {root : Fields} {e : RenderError}
    (h : ofJson (.object root) = .error e) : e = .longNumber := by
  have hblocks : Node.renderBlocks (Node.contentOfFields root) = .error e := by
    rcases exists_of_bind_eq_error h with h | ⟨parts, -, h⟩
    · exact h
    · cases h
  obtain ⟨x, hx, hfails⟩ := Node.exists_of_renderBlocks_eq_error hblocks
  rw [Node.contentOfFields_eq_map, List.mem_map] at hx
  obtain ⟨top, -, rfl⟩ := hx
  obtain ⟨y, hreach, hy⟩ := Node.exists_of_renderBlock_eq_error _ hfails
  obtain ⟨f, rfl, -⟩ := Node.reaches_ofFields_iff.mp hreach
  exact Node.eq_longNumber_of_fails (Node.everywhere_wellFormed_ofFields f _ (.self _)) hy

theorem fields_short_of_load {p : Payload} {root : Fields} (h : p.load = .ok root) :
    Json.ShortFields root := by
  obtain ⟨v, hread, hfields⟩ := exists_of_bind_eq_ok h
  have hshort := Payload.short_of_read hread
  cases v with
  | object fields => exact Except.ok.inj hfields ▸ hshort
  | null =>
    obtain rfl := Except.ok.inj hfields
    exact ⟨trivial, Nat.lt_of_lt_of_le (by decide) le_pow_maxDigits, trivial, trivial⟩
  | _ => cases hfields

theorem forall_natAbs_lt_iff {first : Int} {n limit : Nat} (hnonneg : 0 ≤ first)
    (hfirst : first < limit) :
    (∀ i < n, (first + (i : Nat)).natAbs < limit) ↔ first + n ≤ limit := by
  constructor
  · intro h
    by_contra hlong
    have hlast := h (n - 1) (by omega)
    omega
  · intro h i hi
    omega

/-- A loaded document renders exactly if no list in it counts on to a number of too many digits. No
first number is one of these, and rendering fails for no other reason. -/
theorem renders_loaded_iff {p : Payload} {root : Fields} (h : p.load = .ok root) :
    ((∃ r, ofJson (.object root) = .ok r) ↔
      ∀ f, StandsIn root .block f → kind? f = some .orderedList →
        firstNumber f + itemCount f ≤ Nat.pow 10 Json.maxDigits) ∧
    (∀ f, StandsIn root .block f → 0 ≤ firstNumber f ∧
      firstNumber f < Nat.pow 10 Json.maxDigits) ∧
    ∀ e, ofJson (.object root) = .error e → e = .longNumber := by
  have hfirst (f : Fields) (hf : StandsIn root .block f) :
      0 ≤ firstNumber f ∧ firstNumber f < Nat.pow 10 Json.maxDigits := by
    obtain ⟨hnonneg, hfew⟩ :=
      firstNumber_mem_range (shortFields_of_standsIn (fields_short_of_load h) hf)
    rw [← Int.natAbs_of_nonneg hnonneg]
    exact ⟨Int.natCast_nonneg _, Int.ofNat_lt.mpr hfew⟩
  have hnumbers (f : Fields) (hf : StandsIn root .block f) (hlist : kind? f = some .orderedList) :
      Node.Renders (Node.ofFields f) ↔
        firstNumber f + itemCount f ≤ Nat.pow 10 Json.maxDigits :=
    (renders_orderedList_iff hlist).trans (forall_natAbs_lt_iff (hfirst f hf).1 (hfirst f hf).2)
  refine ⟨?_, hfirst, fun e he => eq_longNumber_of_ofJson he⟩
  rw [exists_ofJson_iff]
  constructor
  · intro hrenders f hf hlist
    exact (hnumbers f hf hlist).mp (hrenders f hf)
  · intro hfit f hf
    by_cases hlist : kind? f = some .orderedList
    · exact (hnumbers f hf hlist).mpr (hfit f hf hlist)
    · exact renders_of_kind?_ne hlist

section LastNumber

/-- A list of two items; the number of the first is as many nines as convert. -/
def ninesList : List Char :=
  "\x7b\"content\": [\x7b\"type\": \"orderedList\", \"attrs\": \x7b\"order\": ".toList ++
    List.replicate 4300 '9' ++
    ("\x7d, \"content\": [\x7b\"type\": \"listItem\"\x7d, " ++
      "\x7b\"type\": \"listItem\"\x7d]\x7d]\x7d").toList

theorem exists_read_ninesList :
    ∃ root, Json.readChars ninesList = .ok (.object root) ∧
      ¬ ∃ r, ofJson (.object root) = .ok r := by
  have hfails : ((Json.readChars ninesList).toOption.any fun j =>
      (ofJson j).toOption.isNone) = true := by decide +kernel
  rw [Option.any_eq_true] at hfails
  obtain ⟨j, hj, hnone⟩ := hfails
  have hread : Json.readChars ninesList = .ok j := by
    cases h : Json.readChars ninesList with
    | ok k => rw [h] at hj; exact congrArg Except.ok (Option.some.inj hj)
    | error e => rw [h] at hj; cases hj
  have hnot : ¬ ∃ r, ofJson j = .ok r := by
    rintro ⟨r, hr⟩
    rw [hr] at hnone
    cases hnone
  cases j with
  | object root => exact ⟨root, hread, hnot⟩
  | _ => exact absurd ⟨_, rfl⟩ hnot

theorem load_ninesList {root : Fields} (h : Json.readChars ninesList = .ok (.object root)) :
    (Payload.text (String.ofList ninesList)).load = .ok root := by
  have hread : (Payload.text (String.ofList ninesList)).read = .ok (.object root) := by
    rw [Payload.read_text_eq, String.toList_ofList, if_neg (by decide), h]
    rfl
  exact Payload.load_of_read_ok hread

/-- The number after the last one that converts keeps a loaded document from being rendered. -/
theorem not_exists_ofJson_ninesList :
    ∃ root, (Payload.text (String.ofList ninesList)).load = .ok root ∧
      ¬ ∃ r, ofJson (.object root) = .ok r := by
  obtain ⟨root, hread, hfails⟩ := exists_read_ninesList
  exact ⟨root, load_ninesList hread, hfails⟩

theorem renders_loaded_iff_ninesList :
    ∃ root f, (Payload.text (String.ofList ninesList)).load = .ok root ∧
      StandsIn root .block f ∧ kind? f = some .orderedList ∧
      firstNumber f < Nat.pow 10 Json.maxDigits ∧
      Nat.pow 10 Json.maxDigits < firstNumber f + itemCount f := by
  obtain ⟨root, hread, hfails⟩ := exists_read_ninesList
  have hload := load_ninesList hread
  obtain ⟨hiff, hfirst, -⟩ := renders_loaded_iff hload
  rw [hiff] at hfails
  push Not at hfails
  obtain ⟨f, hf, hlist, hlong⟩ := hfails
  exact ⟨root, f, hload, hf, hlist, (hfirst f hf).2, hlong⟩

end LastNumber

end Rendering

end AdfMarkdown
