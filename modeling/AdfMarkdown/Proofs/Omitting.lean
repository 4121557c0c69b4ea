import AdfMarkdown.Proofs.Agreement
import AdfMarkdown.Proofs.Reporting

/-! # What is left out leaves no trace

Taking each node that rendering leaves out at its place out of a document keeps all the others, and
they render the same: a node that is left out gives no text, asks for no separator and counts as no
item.
-/

namespace AdfMarkdown

namespace Place

theorem opens?_line (kind? : Option NodeKind) : opens? .line kind? = none := by
  cases kind? with
  | none => rfl
  | some kind => cases kind <;> rfl

theorem opens?_code (kind? : Option NodeKind) : opens? .code kind? = none := by
  cases kind? with
  | none => rfl
  | some kind => cases kind <;> rfl

variable {α : Type} {kindOf : α → Option NodeKind} {children : α → List α} {pruned : Place → α → α}

theorem drops_eq_false_of_reaches {p r : Place} {x z : α} (h : Reaches kindOf children p x r z)
    (hz : r.drops (kindOf z) = false) : p.drops (kindOf x) = false := by
  cases h with
  | self => exact hz
  | child hq _ _ => exact drops_eq_false_of_opens? hq

/-- If each tree keeps its kind and its children that are not left out, rendering comes to what it
came to before, but for what is left out. -/
theorem reaches_pruned_iff (hkind : ∀ p x, kindOf (pruned p x) = kindOf x)
    (hchildren : ∀ (p q : Place) x, p.opens? (kindOf x) = some q → children (pruned p x) =
      ((children x).filter fun y => !q.drops (kindOf y)).map (pruned q))
    {p r : Place} {x z' : α} (hx : p.drops (kindOf x) = false) :
    Reaches kindOf children p (pruned p x) r z' ↔
      ∃ z, Reaches kindOf children p x r z ∧ r.drops (kindOf z) = false ∧ z' = pruned r z := by
  constructor
  · -- The induction is on the way through the pruned tree, for every tree that it is pruned from.
    intro h
    generalize hw : pruned p x = x' at h
    induction h generalizing x with
    | self p x' => exact ⟨x, .self p x, hx, hw.symm⟩
    | child hq hy _ ih =>
      subst hw
      rw [hkind] at hq
      rw [hchildren _ _ _ hq, List.mem_map] at hy
      obtain ⟨y, hy, hwy⟩ := hy
      rw [List.mem_filter, Bool.not_eq_true'] at hy
      obtain ⟨z, hz, hr⟩ := ih hy.2 hwy
      exact ⟨z, .child hq hy.1 hz, hr⟩
  · rintro ⟨z, h, hz, rfl⟩
    induction h with
    | self p x => exact .self p (pruned p x)
    | child hq hy h ih =>
      -- What lies on the way to a node that is kept is kept.
      have htaken := drops_eq_false_of_reaches h hz
      refine .child ((hkind _ _).symm ▸ hq) ?_ (ih htaken hz)
      rw [hchildren _ _ _ hq]
      exact List.mem_map_of_mem (List.mem_filter.mpr ⟨hy, by rw [htaken, Bool.not_false]⟩)

end Place

theorem Text.join_empty_cons (s : String) (rest : List String) :
    join "" (s :: rest) = s ++ join "" rest := by
  cases rest with
  | nil => simp
  | cons t rest => simp [join_cons_cons]

namespace Node

mutual

/-- The node at the place without the nodes below it that are left out. -/
def prune (p : Place) : Node → Node
  | foreign name => foreign name
  | known kind content attrs text marks =>
    known kind (match p.opens? (some kind) with
      | some q => pruneAll q content
      | none => content) attrs text marks

def pruneAll (p : Place) : List Node → List Node
  | [] => []
  | x :: xs => if p.drops x.kind? then pruneAll p xs else prune p x :: pruneAll p xs

end

theorem pruneAll_eq (p : Place) (xs : List Node) :
    pruneAll p xs = (xs.filter fun x => !p.drops x.kind?).map (prune p) := by
  induction xs with
  | nil => simp [pruneAll]
  | cons x xs ih => cases h : p.drops x.kind? <;> simp [pruneAll, h, ih]

@[simp]
theorem kind?_prune (p : Place) (x : Node) : (prune p x).kind? = x.kind? := by
  cases x with
  | foreign name => simp [prune]
  | known kind content attrs text marks => simp [prune, kind?]

theorem prune_of_opens? {p q : Place} {kind : NodeKind} (h : p.opens? (some kind) = some q)
    (content : List Node) (attrs : Fields) (text : Option String) (marks : List Mark) :
    prune p (known kind content attrs text marks) =
      known kind (pruneAll q content) attrs text marks := by
  rw [prune, h]

theorem prune_of_opens?_eq_none {p : Place} {x : Node} (h : p.opens? x.kind? = none) :
    prune p x = x := by
  cases x with
  | foreign name => rw [prune]
  | known kind content attrs text marks =>
    rw [kind?] at h
    rw [prune, h]

theorem content_prune {p q : Place} {x : Node} (h : p.opens? x.kind? = some q) :
    (prune p x).content = (x.content.filter fun y => !q.drops y.kind?).map (prune q) := by
  cases x with
  | foreign name => cases h
  | known kind content attrs text marks =>
    rw [prune_of_opens? h]
    exact pruneAll_eq q content

section Text

variable {p : Place} {f : Node → String}

theorem join_map_pruneAll (hdrop : ∀ x, p.drops x.kind? = true → f x = "")
    (hkeep : ∀ x, f (prune p x) = f x) (xs : List Node) :
    Text.join "" ((pruneAll p xs).map f) = Text.join "" (xs.map f) := by
  induction xs with
  | nil => simp [pruneAll]
  | cons x xs ih =>
    rw [pruneAll, List.map_cons, Text.join_empty_cons]
    split
    · next h => rw [hdrop x h, ih, String.empty_append]
    · rw [List.map_cons, Text.join_empty_cons, hkeep, ih]

theorem renderInline_pruneAll (xs : List Node) :
    renderInline (pruneAll .line xs) = renderInline xs := by
  refine join_map_pruneAll (fun x h => ?_) (fun x => ?_) xs
  · cases x with
    | foreign name => rfl
    | known kind content attrs text marks =>
      cases kind with
      | text | hardBreak => cases h
      | _ => rfl
  · rw [prune_of_opens?_eq_none (Place.opens?_line x.kind?)]

theorem plainText_pruneAll (xs : List Node) :
    plainText (pruneAll .code xs) = plainText xs := by
  refine join_map_pruneAll (fun x h => ?_) (fun x => ?_) xs
  · cases x with
    | foreign name => rfl
    | known kind content attrs text marks =>
      cases kind with
      | text => cases h
      | _ => rfl
  · rw [prune_of_opens?_eq_none (Place.opens?_code x.kind?)]

end Text

section Blocks

theorem renderBlock_of_drops {x : Node} (h : Place.drops .block x.kind? = true) :
    renderBlock x = .ok "" := by
  cases x with
  | foreign name => rfl
  | known kind content attrs text marks =>
    cases kind with
    | doc | text => rfl
    | _ => cases h

/-- What the nodes give as blocks, but for what is empty and so takes no separator. -/
def shownBlocks (xs : List Node) : Except RenderError (List String) :=
  List.filter (· ≠ "") <$> renderBlocks xs

theorem shownBlocks_cons (x : Node) (xs : List Node) :
    shownBlocks (x :: xs) = do
      let part ← renderBlock x
      let parts ← shownBlocks xs
      return if part = "" then parts else part :: parts := by
  rw [shownBlocks, shownBlocks, renderBlocks]
  cases renderBlock x with
  | error e => rfl
  | ok part =>
    cases renderBlocks xs with
    | error e => rfl
    | ok parts => by_cases hpart : part = "" <;> simp [pure, bind, Except.pure, Except.bind, hpart]

theorem renderBlock_listItem (content : List Node) (attrs : Fields) (text : Option String)
    (marks : List Mark) :
    renderBlock (known .listItem content attrs text marks) =
      Text.join " " <$> shownBlocks content := by
  rw [renderBlock, bind_pure_comp, shownBlocks, Functor.map_map]
  rfl

theorem renderBlock_blockquote (content : List Node) (attrs : Fields) (text : Option String)
    (marks : List Mark) :
    renderBlock (known .blockquote content attrs text marks) =
      (fun parts => quote (Text.join "\n\n" parts)) <$> shownBlocks content := by
  rw [renderBlock, bind_pure_comp, shownBlocks, Functor.map_map]
  rfl

theorem shownBlocks_pruneAll {xs : List Node}
    (h : ∀ x ∈ xs, renderBlock (prune .block x) = renderBlock x) :
    shownBlocks (pruneAll .block xs) = shownBlocks xs := by
  induction xs with
  | nil => rw [pruneAll]
  | cons x xs ih =>
    rw [List.forall_mem_cons] at h
    rw [pruneAll, shownBlocks_cons]
    split
    · next hx =>
      rw [ih h.2, renderBlock_of_drops hx]
      cases shownBlocks xs <;> rfl
    · rw [shownBlocks_cons, h.1, ih h.2]

theorem not_drops_list (x : Node) : (!Place.drops .list x.kind?) = x.isItem := by
  cases x with
  | foreign name => rfl
  | known kind content attrs text marks => cases kind <;> rfl

theorem isItem_prune (p : Place) (x : Node) : (prune p x).isItem = x.isItem := by
  rw [← not_drops_list, ← not_drops_list, kind?_prune]

theorem prune_list_of_isItem {x : Node} (h : x.isItem = true) :
    prune .list x = prune .block x := by
  obtain ⟨content, attrs, text, marks, rfl⟩ := exists_of_isItem h
  rfl

theorem renderItems_pruneAll {xs : List Node}
    (h : ∀ x ∈ xs, renderBlock (prune .block x) = renderBlock x) :
    renderItems (pruneAll .list xs) = renderItems xs := by
  have hall : pruneAll .list xs = (xs.filter isItem).map (prune .block) := by
    rw [pruneAll_eq]
    simp only [not_drops_list]
    exact List.map_congr_left fun x hx => prune_list_of_isItem (List.mem_filter.mp hx).2
  have hitems : ((xs.filter isItem).map (prune .block)).filter isItem =
      (xs.filter isItem).map (prune .block) := by
    simp [List.filter_map, Function.comp_def, isItem_prune]
  rw [renderItems_eq, renderItems_eq, hall, hitems]
  exact renderBlocks_map_congr fun x hx => h x (List.mem_filter.mp hx).1

/-- A node gives the same without the nodes below it that are left out. -/
theorem renderBlock_prune (x : Node) : renderBlock (prune .block x) = renderBlock x := by
  induction x using Node.induct with
  | step x ih =>
    cases x with
    | foreign name => rw [prune]
    | known kind content attrs text marks =>
      have hblocks : shownBlocks (pruneAll .block content) = shownBlocks content :=
        shownBlocks_pruneAll ih
      have hitems : renderItems (pruneAll .list content) = renderItems content :=
        renderItems_pruneAll ih
      cases kind with
      | paragraph | heading =>
        rw [prune_of_opens? (q := .line) rfl, renderBlock, renderBlock, renderInline_pruneAll]
      | codeBlock =>
        rw [prune_of_opens? (q := .code) rfl, renderBlock, renderBlock, plainText_pruneAll]
      | bulletList | orderedList =>
        rw [prune_of_opens? (q := .list) rfl, renderBlock, renderBlock, hitems]
      | listItem =>
        rw [prune_of_opens? (q := .block) rfl, renderBlock_listItem, renderBlock_listItem, hblocks]
      | blockquote =>
        rw [prune_of_opens? (q := .block) rfl, renderBlock_blockquote, renderBlock_blockquote,
          hblocks]
      | hardBreak | doc | text => rw [prune_of_opens?_eq_none rfl]

theorem skippedInBlocks_pruneAll (xs : List Node) : skippedInBlocks (pruneAll .block xs) = [] := by
  rw [skippedInBlocks_eq_flatMap, List.flatMap_eq_nil_iff, pruneAll_eq]
  intro y hy
  obtain ⟨x, hx, rfl⟩ := List.mem_map.mp hy
  rw [List.mem_filter, Bool.not_eq_true'] at hx
  rw [List.eq_nil_iff_forall_not_mem]
  intro name hname
  obtain ⟨q, y, hreach, -, hdrops, -⟩ := (mem_skippedAt_iff _ .block).mp hname
  obtain ⟨z, -, hz, rfl⟩ :=
    (Place.reaches_pruned_iff kind?_prune (fun _ _ _ h => content_prune h) hx.2).mp hreach
  rw [kind?_prune, hz] at hdrops
  cases hdrops

end Blocks

end Node

theorem Rendering.ofBlocks_eq (xs : List Node) :
    Rendering.ofBlocks xs = (fun parts => ⟨Text.join "\n\n" parts,
      (SkippedNames.ofList (Node.skippedInBlocks xs)).warnings⟩) <$> Node.shownBlocks xs := by
  rw [ofBlocks, bind_pure_comp, Node.shownBlocks, Functor.map_map]
  rfl

theorem Rendering.ofBlocks_pruneAll (xs : List Node) :
    Rendering.ofBlocks (Node.pruneAll .block xs) =
      (fun r => ⟨r.markdown, []⟩) <$> Rendering.ofBlocks xs := by
  rw [ofBlocks_eq, ofBlocks_eq, Node.skippedInBlocks_pruneAll,
    Node.shownBlocks_pruneAll fun x _ => Node.renderBlock_prune x, Functor.map_map]
  rfl

namespace Fields

mutual

/-- The fields of an object whose content stands at the place, without the objects below it that
are left out. -/
def pruneContent (p : Place) : List (String × Json) → List (String × Json)
  | [] => []
  | (k, v) :: rest =>
    if k = "content" then (k, pruneValue p v) :: rest else (k, v) :: pruneContent p rest

def pruneValue (p : Place) : Json → Json
  | .array items => .array (pruneItems p items)
  | v => v

/-- The items without the objects that are left out at the place, and each of the others without
those below it. What is no object stays. -/
def pruneItems (p : Place) : List Json → List Json
  | [] => []
  | .object fields :: rest =>
    if p.drops (kind? fields) then pruneItems p rest
    else .object (match p.opens? (kind? fields) with
      | some q => pruneContent q fields
      | none => fields) :: pruneItems p rest
  | v :: rest => v :: pruneItems p rest

end

def prune (p : Place) (fields : Fields) : Fields :=
  match p.opens? (kind? fields) with
  | some q => pruneContent q fields
  | none => fields

theorem pruneItems_object (p : Place) (fields : Fields) (rest : List Json) :
    pruneItems p (.object fields :: rest) =
      if p.drops (kind? fields) then pruneItems p rest
      else .object (prune p fields) :: pruneItems p rest := by
  rw [pruneItems]
  rfl

theorem get?_pruneContent {key : String} (h : key ≠ "content") (p : Place) (fields : Fields) :
    get? key (pruneContent p fields) = get? key fields := by
  induction fields with
  | nil => simp [pruneContent]
  | cons f rest ih =>
    obtain ⟨k, v⟩ := f
    by_cases hk : k = "content"
    · subst hk
      simp [pruneContent, get?, h.symm]
    · simp [pruneContent, get?, hk, ih]

theorem get?_content_pruneContent (p : Place) (fields : Fields) :
    get? "content" (pruneContent p fields) = (get? "content" fields).map (pruneValue p) := by
  induction fields with
  | nil => simp [pruneContent]
  | cons f rest ih =>
    obtain ⟨k, v⟩ := f
    by_cases hk : k = "content" <;> simp [pruneContent, get?, hk, ih]

theorem kind?_pruneContent (p : Place) (fields : Fields) :
    kind? (pruneContent p fields) = kind? fields := by
  rw [kind?, kind?, typeName, typeName, get?_pruneContent (by decide)]

@[simp]
theorem kind?_prune (p : Place) (fields : Fields) : kind? (prune p fields) = kind? fields := by
  rw [prune]
  split
  · exact kind?_pruneContent _ fields
  · rfl

theorem filterMap_pruneItems (p : Place) (items : List Json) :
    (pruneItems p items).filterMap Json.object? =
      ((items.filterMap Json.object?).filter fun f => !p.drops (kind? f)).map (prune p) := by
  induction items with
  | nil => simp [pruneItems]
  | cons v rest ih =>
    cases v with
    | object fields =>
      cases h : p.drops (kind? fields) <;>
        simp [pruneItems_object, Json.object?, h, ih]
    | _ => simpa [pruneItems, List.filterMap_cons, Json.object?] using ih

theorem contents_pruneContent (p : Place) (fields : Fields) :
    contents (pruneContent p fields) =
      ((contents fields).filter fun f => !p.drops (kind? f)).map (prune p) := by
  rw [contents, contents, get?_content_pruneContent]
  cases get? "content" fields with
  | none => rfl
  | some v =>
    cases v with
    | array items => simpa [pruneValue] using filterMap_pruneItems p items
    | _ => simp [pruneValue]

theorem contents_prune {p q : Place} {fields : Fields} (h : p.opens? (kind? fields) = some q) :
    contents (prune p fields) =
      ((contents fields).filter fun f => !q.drops (kind? f)).map (prune q) := by
  rw [prune, h]
  exact contents_pruneContent q fields

/-- The objects in a pruned document are those that are not left out, each pruned. -/
theorem standsIn_pruneContent_iff {root : Fields} {p : Place} {g : Fields} :
    StandsIn (pruneContent .block root) p g ↔
      ∃ f, StandsIn root p f ∧ p.drops (kind? f) = false ∧ g = prune p f := by
  have hreaches {top : Fields} (htop : Place.drops .block (kind? top) = false) :
      Place.Reaches kind? contents .block (prune .block top) p g ↔
        ∃ f, Place.Reaches kind? contents .block top p f ∧ p.drops (kind? f) = false ∧
          g = prune p f :=
    Place.reaches_pruned_iff kind?_prune (fun _ _ _ h => contents_prune h) htop
  rw [StandsIn, contents_pruneContent]
  constructor
  · rintro ⟨top', htop', hreach⟩
    obtain ⟨top, htop, rfl⟩ := List.mem_map.mp htop'
    rw [List.mem_filter, Bool.not_eq_true'] at htop
    obtain ⟨f, hf, hkept⟩ := (hreaches htop.2).mp hreach
    exact ⟨f, ⟨top, htop.1, hf⟩, hkept⟩
  · rintro ⟨f, ⟨top, htop, hf⟩, hkept⟩
    have htaken := Place.drops_eq_false_of_reaches hf hkept.1
    refine ⟨prune .block top, List.mem_map_of_mem ?_, (hreaches htaken).mpr ⟨f, hf, hkept⟩⟩
    exact List.mem_filter.mpr ⟨htop, by rw [htaken, Bool.not_false]⟩

theorem not_leftOut_pruneContent (root : Fields) (p : Place) (g : Fields) :
    ¬ LeftOut (pruneContent .block root) p g := by
  rintro ⟨hstands, hdrops⟩
  obtain ⟨f, -, htaken, rfl⟩ := standsIn_pruneContent_iff.mp hstands
  rw [kind?_prune, htaken] at hdrops
  cases hdrops

end Fields

namespace Node

theorem assemble_congr {fields fields' : Fields}
    (h : ∀ key, key ≠ "content" → Fields.get? key fields = Fields.get? key fields')
    (content : List Node) : assemble fields content = assemble fields' content := by
  rw [assemble, assemble, h "type" (by decide), h "text" (by decide), h "marks" (by decide),
    h "attrs" (by decide)]

theorem assemble_pruneContent (p : Place) (fields : Fields) (content : List Node) :
    assemble (Fields.pruneContent p fields) content = assemble fields content :=
  assemble_congr (fun _ h => Fields.get?_pruneContent h p fields) content

theorem ofItems_object (fields : Fields) (rest : List Json) :
    ofItems (.object fields :: rest) = ofFields fields :: ofItems rest := by
  rw [ofItems, ofFields]

theorem exists_assemble_eq_branch {p q : Place} {fields : Fields}
    (h : p.opens? (Fields.kind? fields) = some q) :
    ∃ kind attrs, p.opens? (some kind) = some q ∧
      ∀ content, assemble fields content = branch kind content attrs := by
  cases hkind : Fields.kind? fields with
  | none =>
    rw [hkind] at h
    cases h
  | some kind =>
    rw [hkind] at h
    refine ⟨kind, attributesFor kind ((Fields.get? "attrs" fields).getD .null), h,
      fun content => ?_⟩
    rw [Fields.kind?, Fields.typeName] at hkind
    rw [assemble, hkind]
    cases kind with
    | text | hardBreak => cases p <;> cases h
    | _ => rfl

theorem ofFields_prune {fields : Fields} (h : ∀ q,
      contentOfFields (Fields.pruneContent q fields) = pruneAll q (contentOfFields fields))
    (p : Place) : ofFields (Fields.prune p fields) = prune p (ofFields fields) := by
  cases hopens : p.opens? (Fields.kind? fields) with
  | none =>
    rw [prune_of_opens?_eq_none (by rw [kind?_ofFields, hopens]), Fields.prune, hopens]
  | some q =>
    obtain ⟨kind, attrs, hkind, hassemble⟩ := exists_assemble_eq_branch hopens
    rw [Fields.prune, hopens, ofFields, h, assemble_pruneContent, ofFields, hassemble, hassemble]
    exact (prune_of_opens? hkind _ attrs none []).symm

mutual

theorem contentOfFields_pruneContent (p : Place) : ∀ fields : List (String × Json),
    contentOfFields (Fields.pruneContent p fields) = pruneAll p (contentOfFields fields)
  | [] => by simp [Fields.pruneContent, contentOfFields, pruneAll]
  | (k, v) :: rest => by
    by_cases hk : k = "content"
    · simp [Fields.pruneContent, contentOfFields, hk, listOfJson_pruneValue p v]
    · simp [Fields.pruneContent, contentOfFields, hk, contentOfFields_pruneContent p rest]

theorem listOfJson_pruneValue (p : Place) : ∀ v : Json,
    listOfJson (Fields.pruneValue p v) = pruneAll p (listOfJson v)
  | .array items => by
    rw [Fields.pruneValue, listOfJson, listOfJson, ofItems_pruneItems p items]
  | .null | .bool _ | .int _ | .float _ | .text _ | .object _ => by
    simp [Fields.pruneValue, listOfJson, pruneAll]

theorem ofItems_pruneItems (p : Place) : ∀ items : List Json,
    ofItems (Fields.pruneItems p items) = pruneAll p (ofItems items)
  | [] => by simp [Fields.pruneItems, ofItems, pruneAll]
  | .object fields :: rest => by
    have hfields := ofFields_prune (fun q => contentOfFields_pruneContent q fields) p
    rw [ofItems_object, pruneAll, kind?_ofFields, Fields.pruneItems_object]
    split
    · exact ofItems_pruneItems p rest
    · rw [ofItems_object, hfields, ofItems_pruneItems p rest]
  | .null :: rest | .bool _ :: rest | .int _ :: rest | .float _ :: rest | .text _ :: rest
  | .array _ :: rest => by
    simp [Fields.pruneItems, ofItems, ofItems_pruneItems p rest]

end

end Node

/-- Taking every object that rendering leaves out, at every depth, out of a document keeps all the
others. The document renders the same then, and without a warning. -/
theorem Rendering.ofJson_pruneContent (root : Fields) :
    (∀ p g, Fields.StandsIn (Fields.pruneContent .block root) p g ↔
      ∃ f, Fields.StandsIn root p f ∧ p.drops (Fields.kind? f) = false ∧ g = Fields.prune p f) ∧
    (∀ p g, ¬ Fields.LeftOut (Fields.pruneContent .block root) p g) ∧
    ofJson (.object (Fields.pruneContent .block root)) =
      (fun r => ⟨r.markdown, []⟩) <$> ofJson (.object root) := by
  refine ⟨fun p g => Fields.standsIn_pruneContent_iff, Fields.not_leftOut_pruneContent root, ?_⟩
  rw [ofJson, ofJson, Node.contentOfFields_pruneContent]
  exact ofBlocks_pruneAll (Node.contentOfFields root)

example :
    let node (name : String) : Json := .object [("type", .text name)]
    let list (items : List Json) : Json :=
      .object [("type", .text "orderedList"), ("content", .array items)]
    Fields.pruneContent .block [("content", .array
        [list [node "listItem", node "rule", .null, node "listItem"], node "text"])] =
      [("content", .array [list [node "listItem", .null, node "listItem"]])] := by
  rfl

end AdfMarkdown
