import AdfMarkdown.Document.Basic
import AdfMarkdown.Token.Basic

/-! # Induction over trees

Nodes and tokens are trees. What holds of a tree once it holds of the trees right below it holds
of every tree; and a property holds everywhere in a tree if it holds at the top and everywhere in
the trees right below.
-/

namespace AdfMarkdown

namespace Node

mutual

@[elab_as_elim]
theorem induct {motive : Node → Prop}
    (step : ∀ x : Node, (∀ y ∈ x.content, motive y) → motive x) : ∀ x : Node, motive x
  | known _ content _ _ _ => step _ (inductList step content)
  | foreign _ => step _ (by simp [content])

theorem inductList {motive : Node → Prop}
    (step : ∀ x : Node, (∀ y ∈ x.content, motive y) → motive x) :
    ∀ xs : List Node, ∀ y ∈ xs, motive y
  | [] => by simp
  | x :: xs => List.forall_mem_cons.mpr ⟨induct step x, inductList step xs⟩

end

/-- The first node is the second one or stands somewhere below it. -/
inductive Within : Node → Node → Prop where
  | self (x : Node) : Within x x
  | child {x y z : Node} : y ∈ z.content → Within x y → Within x z

/-- The property holds of the node and of every node below it. -/
def Everywhere (P : Node → Prop) (x : Node) : Prop := ∀ y, y.Within x → P y

theorem everywhere_iff {P : Node → Prop} {x : Node} :
    x.Everywhere P ↔ P x ∧ ∀ y ∈ x.content, y.Everywhere P := by
  constructor
  · intro h
    exact ⟨h x (.self x), fun y hy z hz => h z (.child hy hz)⟩
  · rintro ⟨hx, hbelow⟩ y hy
    cases hy with
    | self => exact hx
    | child hz hy => exact hbelow _ hz _ hy

theorem everywhere_of_content_eq_nil {P : Node → Prop} {x : Node} (hx : x.content = [])
    (h : P x) : x.Everywhere P := by
  refine everywhere_iff.mpr ⟨h, ?_⟩
  rw [hx]
  exact List.forall_mem_nil _

theorem everywhere_known {P : Node → Prop} {kind : NodeKind} {content : List Node} {attrs : Fields}
    {text : Option String} {marks : List Mark} :
    (known kind content attrs text marks).Everywhere P ↔
      P (known kind content attrs text marks) ∧ ∀ y ∈ content, y.Everywhere P := everywhere_iff

theorem everywhere_foreign {P : Node → Prop} {name : String} :
    (foreign name).Everywhere P ↔ P (foreign name) :=
  ⟨fun h => h _ (.self _), everywhere_of_content_eq_nil rfl⟩

end Node

namespace Token

mutual

@[elab_as_elim]
theorem induct {motive : Token → Prop}
    (step : ∀ t : Token, (∀ u ∈ t.children, motive u) → motive t) : ∀ t : Token, motive t
  | mk _ _ _ _ none => step _ (by simp [children, children?])
  | mk _ _ _ _ (some ts) => step _ (inductList step ts)

theorem inductList {motive : Token → Prop}
    (step : ∀ t : Token, (∀ u ∈ t.children, motive u) → motive t) :
    ∀ ts : List Token, ∀ u ∈ ts, motive u
  | [] => by simp
  | t :: ts => List.forall_mem_cons.mpr ⟨induct step t, inductList step ts⟩

end

inductive Within : Token → Token → Prop where
  | self (t : Token) : Within t t
  | child {s t u : Token} : t ∈ u.children → Within s t → Within s u

def Everywhere (P : Token → Prop) (t : Token) : Prop := ∀ s, s.Within t → P s

theorem everywhere_iff {P : Token → Prop} {t : Token} :
    t.Everywhere P ↔ P t ∧ ∀ u ∈ t.children, u.Everywhere P := by
  constructor
  · intro h
    exact ⟨h t (.self t), fun u hu s hs => h s (.child hu hs)⟩
  · rintro ⟨ht, hbelow⟩ s hs
    cases hs with
    | self => exact ht
    | child hu hs => exact hbelow _ hu _ hs

theorem Within.trans {s t u : Token} (hst : s.Within t) (htu : t.Within u) : s.Within u := by
  induction htu with
  | self => exact hst
  | child hu _ ih => exact .child hu ih

theorem Everywhere.everywhere {P : Token → Prop} {t : Token} (h : t.Everywhere P) :
    t.Everywhere fun u => u.Everywhere P := fun _ hu s hs => h s (hs.trans hu)

theorem everywhere_mk {P : Token → Prop} {name : String} {raw style : Option String}
    {attrs : Option Fields} {ts : Option (List Token)} :
    (mk name raw style attrs ts).Everywhere P ↔
      P (mk name raw style attrs ts) ∧ ∀ u ∈ ts.getD [], u.Everywhere P := everywhere_iff

end Token

end AdfMarkdown
