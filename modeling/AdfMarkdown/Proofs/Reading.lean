import AdfMarkdown.Proofs.Lossless

/-! # Reading gives well-formed trees

Whatever the JSON value of an object, reading it gives a tree in which every node has the fields
of its kind only, in their range. Reading leaves such a tree as it is, so the well-formed trees
are exactly those that are read back as they were written.
-/

namespace AdfMarkdown

/-- A link mark has a destination, which is not empty, and no other mark has one. -/
def Mark.WellFormed (m : Mark) : Prop :=
  if m.kind = .link then ∃ s, s ≠ "" ∧ m.href = some s else m.href = none

theorem Mark.WellFormed.reread?_eq {m : Mark} (h : m.WellFormed) : m.reread? = some m := by
  obtain ⟨kind, href⟩ := m
  by_cases hk : kind = .link
  · subst hk
    obtain ⟨s, hs, rfl⟩ := h
    simp [Mark.reread?, Mark.link, hs]
  · have hhref : href = none := by simpa [Mark.WellFormed, hk] using h
    simp [Mark.reread?, hk, hhref]

theorem Mark.wellFormed_of_ofJson? {v : Json} {m : Mark} (h : Mark.ofJson? v = some m) :
    m.WellFormed := by
  simp only [Mark.ofJson?, Option.bind_eq_bind, Option.bind_eq_some_iff] at h
  obtain ⟨-, -, name, -, kind, -, h⟩ := h
  split at h
  · simp only [Option.bind_eq_some_iff] at h
    obtain ⟨-, -, -, -, s, -, h⟩ := h
    split at h
    · cases h
    · next hs =>
      obtain rfl := Option.some.inj h
      exact ⟨s, hs, rfl⟩
  · next hk =>
    obtain rfl := Option.some.inj h
    simp [Mark.WellFormed, hk]

theorem Mark.forall_mem_listOfJson (v : Option Json) : ∀ m ∈ Mark.listOfJson v, m.WellFormed := by
  intro m hm
  unfold Mark.listOfJson at hm
  split at hm
  · obtain ⟨item, -, hitem⟩ := List.mem_filterMap.mp hm
    exact Mark.wellFormed_of_ofJson? hitem
  · cases hm

namespace Node

def AttrsInRange : NodeKind → Fields → Prop
  | .heading, attrs => ∃ n : Nat, 1 ≤ n ∧ n ≤ 6 ∧ attrs = [("level", .int n)]
  | .codeBlock, attrs => attrs = [] ∨ ∃ s, s ≠ "" ∧ attrs = [("language", .text s)]
  | .orderedList, attrs => attrs = [] ∨ ∃ n : Nat, attrs = [("order", .int n)]
  | _, attrs => attrs = []

theorem exists_clampLevel (n : Int) : ∃ k : Nat, 1 ≤ k ∧ k ≤ 6 ∧ clampLevel n = k := by
  have hlow : 1 ≤ clampLevel n := by simp [clampLevel]
  have hhigh : clampLevel n ≤ 6 := by simp [clampLevel]
  exact ⟨(clampLevel n).toNat, by omega, by omega, by omega⟩

theorem exists_headingLevel (v : Json) : ∃ k : Nat, 1 ≤ k ∧ k ≤ 6 ∧ headingLevel v = k := by
  unfold headingLevel
  split
  · exact exists_clampLevel _
  · exact ⟨1, by decide, by decide, rfl⟩

theorem exists_of_listOrder? {v : Json} {n : Int} (h : listOrder? v = some n) :
    ∃ k : Nat, n = k := by
  have hn : ∃ m, n = max 0 m := by
    cases v with
    | int m => exact ⟨m, (Option.some.inj h).symm⟩
    | float x =>
      obtain ⟨m, -, rfl⟩ := Option.map_eq_some_iff.mp h
      exact ⟨m, rfl⟩
    | _ => cases h
  obtain ⟨m, rfl⟩ := hn
  exact ⟨(max 0 m).toNat, by omega⟩

theorem ne_empty_of_codeLanguage? {v : Json} {s : String} (h : codeLanguage? v = some s) :
    s ≠ "" := by
  cases v with
  | text t =>
    simp only [codeLanguage?] at h
    split at h
    · cases h
    · next ht => exact Option.some.inj h ▸ ht
  | _ => cases h

theorem attrsInRange_attributesFor (kind : NodeKind) (attrs : Json) :
    AttrsInRange kind (attributesFor kind attrs) := by
  cases kind with
  | heading =>
    obtain ⟨k, h1, h6, hk⟩ := exists_headingLevel ((attrs.get? "level").getD .null)
    exact ⟨k, h1, h6, by rw [attributesFor, hk]⟩
  | codeBlock =>
    simp only [attributesFor]
    split
    · next s hs =>
      obtain ⟨v, -, hv⟩ := Option.bind_eq_some_iff.mp hs
      exact .inr ⟨s, ne_empty_of_codeLanguage? hv, rfl⟩
    · exact .inl rfl
  | orderedList =>
    simp only [attributesFor]
    split
    · next n hn =>
      obtain ⟨v, -, hv⟩ := Option.bind_eq_some_iff.mp hn
      obtain ⟨k, rfl⟩ := exists_of_listOrder? hv
      exact .inr ⟨k, rfl⟩
    · exact .inl rfl
  | _ => rfl

theorem attributesFor_of_attrsInRange {kind : NodeKind} {attrs : Fields}
    (h : AttrsInRange kind attrs) : attributesFor kind (.object attrs) = attrs := by
  cases kind with
  | heading =>
    obtain ⟨n, h1, h6, rfl⟩ := h
    exact attributesFor_heading h1 h6
  | codeBlock =>
    rcases h with rfl | ⟨s, hs, rfl⟩
    · rfl
    · simpa [hs] using attributesFor_codeBlock s
  | orderedList =>
    rcases h with rfl | ⟨n, rfl⟩
    · rfl
    · simp [attributesFor, Json.get?, Fields.get?, listOrder?]
  | _ =>
    obtain rfl : attrs = [] := h
    rfl

/-- The node has the fields of its kind only, in their range. Only text has a text and marks, and
a node whose kind is not known has a name that no kind has. -/
def WellFormed : Node → Prop
  | known .text content attrs text marks =>
    content = [] ∧ attrs = [] ∧ text.isSome ∧ ∀ m ∈ marks, m.WellFormed
  | known kind content attrs text marks =>
    (kind = .hardBreak → content = []) ∧ AttrsInRange kind attrs ∧ text = none ∧ marks = []
  | foreign name => NodeKind.ofName? name = none

theorem wellFormed_branch {kind : NodeKind} (ht : kind ≠ .text) (hb : kind ≠ .hardBreak)
    (content : List Node) {attrs : Fields} (h : AttrsInRange kind attrs) :
    WellFormed (branch kind content attrs) := by
  have hcontent : kind = .hardBreak → content = [] := fun hk => absurd hk hb
  cases kind with
  | text => exact absurd rfl ht
  | _ => exact ⟨hcontent, h, rfl, rfl⟩

theorem wellFormed_assemble (fields : Fields) (content : List Node) :
    WellFormed (assemble fields content) := by
  rw [assemble]
  split
  · next hname => exact hname
  · exact ⟨rfl, rfl, rfl, Mark.forall_mem_listOfJson _⟩
  · exact ⟨fun _ => rfl, rfl, rfl, rfl⟩
  · next kind ht hb _ =>
    exact wellFormed_branch ht hb content (attrsInRange_attributesFor _ _)

theorem mem_of_mem_content_assemble {fields : Fields} {content : List Node} {x : Node}
    (h : x ∈ (assemble fields content).content) : x ∈ content := by
  rw [assemble] at h
  split at h
  · cases h
  · cases h
  · cases h
  · exact h

section Induction

variable {P : Node → Prop}

theorem everywhere_assemble (hP : ∀ fields content, P (assemble fields content))
    {fields : Fields} {content : List Node} (h : ∀ x ∈ content, x.Everywhere P) :
    (assemble fields content).Everywhere P :=
  everywhere_iff.mpr ⟨hP fields content, fun x hx => h x (mem_of_mem_content_assemble hx)⟩

mutual

theorem forall_mem_contentOfFields (hP : ∀ fields content, P (assemble fields content)) :
    ∀ fields : List (String × Json), ∀ x ∈ contentOfFields fields, x.Everywhere P
  | [] => by simp [contentOfFields]
  | (k, v) :: rest => by
    rw [contentOfFields]
    split
    · exact forall_mem_listOfJson hP v
    · exact forall_mem_contentOfFields hP rest

theorem forall_mem_listOfJson (hP : ∀ fields content, P (assemble fields content)) :
    ∀ v : Json, ∀ x ∈ listOfJson v, x.Everywhere P
  | .array items => by
    rw [listOfJson]
    exact forall_mem_ofItems hP items
  | .null | .bool _ | .int _ | .float _ | .text _ | .object _ => by simp [listOfJson]

theorem forall_mem_ofItems (hP : ∀ fields content, P (assemble fields content)) :
    ∀ items : List Json, ∀ x ∈ ofItems items, x.Everywhere P
  | [] => by simp [ofItems]
  | .object fields :: rest => by
    rw [ofItems, List.forall_mem_cons]
    exact ⟨everywhere_assemble hP (forall_mem_contentOfFields hP fields),
      forall_mem_ofItems hP rest⟩
  | .null :: rest | .bool _ :: rest | .int _ :: rest | .float _ :: rest | .text _ :: rest
  | .array _ :: rest => by
    rw [ofItems]
    · exact forall_mem_ofItems hP rest
    · nofun

end

end Induction

theorem everywhere_wellFormed_ofFields (fields : Fields) :
    (ofFields fields).Everywhere WellFormed :=
  everywhere_assemble wellFormed_assemble (forall_mem_contentOfFields wellFormed_assemble fields)

theorem WellFormed.ownFields {kind : NodeKind} {content : List Node} {attrs : Fields}
    {text : Option String} {marks : List Mark}
    (h : WellFormed (known kind content attrs text marks)) :
    OwnFields kind content attrs text marks ∧ ∀ m ∈ marks, m.WellFormed := by
  cases kind with
  | text =>
    obtain ⟨rfl, rfl, htext, hmarks⟩ := h
    exact ⟨⟨rfl, fun _ => rfl, by simp [htext], by simp⟩, hmarks⟩
  | hardBreak =>
    obtain ⟨hleaf, hattrs, rfl, rfl⟩ := h
    obtain rfl := hleaf rfl
    exact ⟨⟨attributesFor_of_attrsInRange hattrs, fun _ => rfl, by simp, fun _ => rfl⟩, by simp⟩
  | _ =>
    obtain ⟨-, hattrs, rfl, rfl⟩ := h
    exact ⟨⟨attributesFor_of_attrsInRange hattrs, by simp, by simp, fun _ => rfl⟩, by simp⟩

theorem reread_of_wellFormed (x : Node) : x.Everywhere WellFormed → x.reread = x := by
  induction x using Node.induct with
  | step x ih =>
    intro h
    obtain ⟨hself, hbelow⟩ := everywhere_iff.mp h
    cases x with
    | foreign name =>
      have hname : NodeKind.ofName? name = none := hself
      simp [reread, ofFields, assemble, Fields.get?, Json.text?, hname]
    | known kind content attrs text marks =>
      obtain ⟨hown, hwell⟩ := WellFormed.ownFields hself
      have hcontent : rereadAll content = content := by
        calc rereadAll content = content.map reread := rereadAll_eq_map content
          _ = content.map id := List.map_congr_left fun y hy => ih y hy (hbelow y hy)
          _ = content := List.map_id content
      have hmarks : marks.filterMap Mark.reread? = marks := by
        calc marks.filterMap Mark.reread?
            = marks.filterMap some := List.filterMap_congr fun m hm => (hwell m hm).reread?_eq
          _ = marks := List.filterMap_some
      rw [hown.reread_eq, hcontent, hmarks]

theorem exists_toJson_eq_object (x : Node) : ∃ fields, x.toJson = .object fields := by
  cases x with
  | foreign name => exact ⟨_, rfl⟩
  | known kind content attrs text marks => exact ⟨_, rfl⟩

/-- Every object is read as a well-formed tree, which is read back as it is when it is written;
and no other trees than the well-formed ones are read back as they are. -/
theorem ofJson?_retraction :
    (∀ fields : Fields, ∃ x, ofJson? (.object fields) = some x ∧ x.Everywhere WellFormed ∧
      ofJson? x.toJson = some x) ∧
    ∀ x : Node, x.Everywhere WellFormed ↔ ofJson? x.toJson = some x := by
  have hfixed (x : Node) (hx : x.Everywhere WellFormed) : ofJson? x.toJson = some x := by
    rw [ofJson?_toJson, reread_of_wellFormed x hx]
  constructor
  · intro fields
    have hx := everywhere_wellFormed_ofFields fields
    exact ⟨ofFields fields, rfl, hx, hfixed _ hx⟩
  · refine fun x => ⟨hfixed x, fun h => ?_⟩
    obtain ⟨fields, hfields⟩ := exists_toJson_eq_object x
    rw [hfields] at h
    obtain rfl := Option.some.inj h
    exact everywhere_wellFormed_ofFields fields

end Node

end AdfMarkdown
