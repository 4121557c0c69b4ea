import AdfMarkdown.Proofs.Skipping

/-! # Where rendering comes to

Rendering takes a node for its kind at the place where the node stands, and the kind says at what
place its children stand. What it leaves out is then a matter of one step: a node that is not
taken at its place is left out, and only in code without a record.
-/

namespace AdfMarkdown

/-- Where a node stands: as a block, as a child of a list, in a line of text, or in code. -/
inductive Place where
  | block
  | list
  | line
  | code
  deriving DecidableEq, Repr

namespace Place

def takes : Place → NodeKind → Bool
  | block, kind => kind ≠ .doc && kind ≠ .text
  | list, kind => kind = .listItem
  | line, kind => kind = .text || kind = .hardBreak
  | code, kind => kind = .text

/-- The place of the children of a node of the kind; a leaf has none. -/
def within? : NodeKind → Option Place
  | .paragraph | .heading => some line
  | .codeBlock => some code
  | .bulletList | .orderedList => some list
  | .listItem | .blockquote => some block
  | .doc | .text | .hardBreak => none

/-- A node is left out at the place: it is of no known kind, or of one that is not taken there. -/
def drops (p : Place) : Option NodeKind → Bool
  | some kind => !p.takes kind
  | none => true

/-- The place of the children of a node at the place, if rendering takes the node. -/
def opens? (p : Place) : Option NodeKind → Option Place
  | some kind => if p.takes kind then within? kind else none
  | none => none

theorem drops_eq_false_of_opens? {p q : Place} {kind? : Option NodeKind}
    (h : p.opens? kind? = some q) : p.drops kind? = false := by
  cases kind? with
  | none => cases h
  | some kind =>
    rw [opens?] at h
    split at h
    · next htakes => rw [drops, htakes, Bool.not_true]
    · cases h

section Reaches

variable {α β : Type} {kindOf : α → Option NodeKind} {children : α → List α}

/-- Rendering the first node at its place comes to the second one at its place. -/
inductive Reaches (kindOf : α → Option NodeKind) (children : α → List α) :
    Place → α → Place → α → Prop where
  | self (p : Place) (x : α) : Reaches kindOf children p x p x
  | child {p q r : Place} {x y z : α} : p.opens? (kindOf x) = some q → y ∈ children x →
      Reaches kindOf children q y r z → Reaches kindOf children p x r z

theorem reaches_iff {p r : Place} {x z : α} :
    Reaches kindOf children p x r z ↔ (r = p ∧ z = x) ∨
      ∃ q, p.opens? (kindOf x) = some q ∧ ∃ y ∈ children x, Reaches kindOf children q y r z := by
  constructor
  · intro h
    cases h with
    | self => exact .inl ⟨rfl, rfl⟩
    | child hq hy h => exact .inr ⟨_, hq, _, hy, h⟩
  · rintro (⟨rfl, rfl⟩ | ⟨q, hq, y, hy, h⟩)
    · exact .self r z
    · exact .child hq hy h

variable {kindOf' : β → Option NodeKind} {children' : β → List β} {f : α → β}

/-- Trees of the same kinds, with the same children wherever rendering goes on, are reached
alike. -/
theorem reaches_map_iff (hkind : ∀ x, kindOf' (f x) = kindOf x)
    (hchildren : ∀ (p q : Place) x, p.opens? (kindOf x) = some q →
      children' (f x) = (children x).map f)
    {p r : Place} {x : α} {z' : β} :
    Reaches kindOf' children' p (f x) r z' ↔ ∃ z, z' = f z ∧ Reaches kindOf children p x r z := by
  constructor
  · intro h
    generalize hx : f x = x' at h
    induction h generalizing x with
    | self p x' => exact ⟨x, hx.symm, .self p x⟩
    | child hq hy _ ih =>
      subst hx
      rw [hkind] at hq
      rw [hchildren _ _ _ hq, List.mem_map] at hy
      obtain ⟨y, hy, hfy⟩ := hy
      obtain ⟨z, hz, h⟩ := ih hfy
      exact ⟨z, hz, .child hq hy h⟩
  · rintro ⟨z, rfl, h⟩
    induction h with
    | self p x => exact .self p (f x)
    | child hq hy _ ih =>
      refine .child ((hkind _).symm ▸ hq) ?_ ih
      rw [hchildren _ _ _ hq]
      exact List.mem_map_of_mem hy

end Reaches

end Place

namespace Node

def kind? : Node → Option NodeKind
  | known kind .. => some kind
  | foreign _ => none

abbrev Reaches (p : Place) (x : Node) (q : Place) (y : Node) : Prop :=
  Place.Reaches kind? content p x q y

theorem everywhere_of_reaches {P : Node → Prop} {p q : Place} {x y : Node}
    (h : x.Reaches p q y) : x.Everywhere P → P y := by
  induction h with
  | self p x => exact fun h => h x (.self x)
  | child _ hy _ ih => exact fun h => ih ((everywhere_iff.mp h).2 _ hy)

/-- The type names that rendering leaves out of a node at the place. -/
def skippedAt : Place → Node → List String
  | .block, x => skippedInBlock x
  | .list, x => skippedInItem x
  | .line, x => x.inlineSkipped?.toList
  | .code, _ => []

theorem skippedInline_eq_flatMap (xs : List Node) :
    skippedInline xs = xs.flatMap (skippedAt .line) := by
  rw [skippedInline, List.filterMap_eq_flatMap_toList]
  rfl

theorem skippedAt_of_drops {p : Place} {x : Node} (h : p.drops x.kind? = true) :
    skippedAt p x = if p = .code then [] else [x.typeName] := by
  cases x with
  | foreign name => cases p <;> rfl
  | known kind content attrs text marks =>
    cases p with
    | block =>
      cases kind with
      | doc | text => rfl
      | _ => cases h
    | list =>
      cases kind with
      | listItem => cases h
      | _ => rfl
    | line =>
      cases kind with
      | text | hardBreak => cases h
      | _ => rfl
    | code => rfl

theorem skippedAt_of_opens? {p q : Place} {x : Node} (h : p.opens? x.kind? = some q) :
    skippedAt p x = x.content.flatMap (skippedAt q) := by
  cases x with
  | foreign name => cases h
  | known kind content attrs text marks =>
    have hline := skippedInline_eq_flatMap content
    have hlist : skippedInItems content = content.flatMap (skippedAt .list) :=
      skippedInItems_eq_flatMap content
    have hblock : skippedInBlocks content = content.flatMap (skippedAt .block) :=
      skippedInBlocks_eq_flatMap content
    have hcode : [] = content.flatMap (skippedAt .code) := by simp [skippedAt]
    cases p with
    | block =>
      cases kind with
      | paragraph | heading => cases h; exact hline
      | codeBlock => cases h; exact hcode
      | bulletList | orderedList => cases h; exact hlist
      | listItem | blockquote => cases h; exact hblock
      | hardBreak | doc | text => cases h
    | list =>
      cases kind with
      | listItem => cases h; exact hblock
      | _ => cases h
    | line | code => cases kind <;> cases h

theorem skippedAt_of_leaf {p : Place} {x : Node} (htaken : p.drops x.kind? = false)
    (hleaf : p.opens? x.kind? = none) : skippedAt p x = [] := by
  cases x with
  | foreign name => cases htaken
  | known kind content attrs text marks =>
    cases p with
    | block =>
      cases kind with
      | hardBreak => rfl
      | doc | text => cases htaken
      | _ => cases hleaf
    | list =>
      cases kind with
      | listItem => cases hleaf
      | _ => cases htaken
    | line =>
      cases kind with
      | text | hardBreak => rfl
      | _ => cases htaken
    | code => rfl

/-- A name is skipped exactly if rendering comes to a node of this name at a place that does not
take it and is not in code. -/
theorem mem_skippedAt_iff {name : String} (x : Node) : ∀ p : Place, name ∈ skippedAt p x ↔
    ∃ q y, x.Reaches p q y ∧ q ≠ .code ∧ q.drops y.kind? = true ∧ y.typeName = name := by
  induction x using Node.induct with
  | step x ih =>
    intro p
    cases hopens : p.opens? x.kind? with
    | some q =>
      have htaken := Place.drops_eq_false_of_opens? hopens
      rw [skippedAt_of_opens? hopens, List.mem_flatMap]
      constructor
      · rintro ⟨y, hy, hname⟩
        obtain ⟨r, z, hreach, hz⟩ := (ih y hy q).mp hname
        exact ⟨r, z, .child hopens hy hreach, hz⟩
      · rintro ⟨r, z, hreach, hz⟩
        rcases Place.reaches_iff.mp hreach with ⟨rfl, rfl⟩ | ⟨q', hq', y, hy, hreach⟩
        · rw [htaken] at hz
          cases hz.2.1
        · obtain rfl : q = q' := Option.some.inj (hopens ▸ hq')
          exact ⟨y, hy, (ih y hy q).mpr ⟨r, z, hreach, hz⟩⟩
    | none =>
      -- Rendering goes no further, so only the node itself can be left out.
      have hself (r : Place) (z : Node) : x.Reaches p r z ↔ r = p ∧ z = x := by
        refine Place.reaches_iff.trans ?_
        rw [hopens]
        simp
      have hexists : (∃ q y, x.Reaches p q y ∧ q ≠ .code ∧ q.drops y.kind? = true ∧
          y.typeName = name) ↔ p ≠ .code ∧ p.drops x.kind? = true ∧ x.typeName = name := by
        constructor
        · rintro ⟨q, y, hreach, hy⟩
          obtain ⟨rfl, rfl⟩ := (hself q y).mp hreach
          exact hy
        · exact fun hx => ⟨p, x, .self p x, hx⟩
      rw [hexists]
      cases hdrops : p.drops x.kind? with
      | false =>
        rw [skippedAt_of_leaf hdrops hopens]
        simp
      | true =>
        rw [skippedAt_of_drops hdrops]
        by_cases hp : p = .code <;> simp [hp, eq_comm]

end Node

end AdfMarkdown
