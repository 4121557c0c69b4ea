import AdfMarkdown.Proofs.Places

/-! # What is left out of a document is reported

The objects of a document in JSON stand at the places of the nodes they are read as, so the law
of what rendering leaves out holds of them. A warning names an object left out, and each of these
has one, unless it stands in code and no other one of its type name is left out.
-/

namespace AdfMarkdown

def Json.object? : Json → Option Fields
  | .object fields => some fields
  | _ => none

namespace Fields

/-- The type name of an object; it is unknown if there is no text for it. -/
def typeName (fields : Fields) : String :=
  ((get? "type" fields).bind Json.text?).getD "unknown"

def kind? (fields : Fields) : Option NodeKind := NodeKind.ofName? (typeName fields)

def contents (fields : Fields) : List Fields :=
  match get? "content" fields with
  | some (.array items) => items.filterMap Json.object?
  | _ => []

/-- Rendering a document comes to the object at the place. -/
def StandsIn (root : Fields) (p : Place) (fields : Fields) : Prop :=
  ∃ top ∈ contents root, Place.Reaches kind? contents .block top p fields

/-- The object stands in the document at a place where its kind is left out. -/
def LeftOut (root : Fields) (p : Place) (fields : Fields) : Prop :=
  StandsIn root p fields ∧ p.drops (kind? fields) = true

end Fields

namespace Node

theorem ofItems_eq_map (items : List Json) :
    ofItems items = (items.filterMap Json.object?).map ofFields := by
  induction items with
  | nil => simp [ofItems]
  | cons v rest ih => cases v <;> simp [ofItems, ofFields, List.filterMap_cons, Json.object?, ih]

theorem contentOfFields_eq_map (fields : Fields) :
    contentOfFields fields = (Fields.contents fields).map ofFields := by
  rw [contentOfFields_eq, Fields.contents]
  cases Fields.get? "content" fields with
  | none => rfl
  | some v =>
    cases v with
    | array items => exact ofItems_eq_map items
    | _ => rfl

theorem kind?_ofFields (fields : Fields) : (ofFields fields).kind? = Fields.kind? fields := by
  rw [ofFields, assemble]
  split
  · next hname => exact hname.symm
  · next hname => exact hname.symm
  · next hname => exact hname.symm
  · next hname => exact hname.symm

theorem typeName_ofFields (fields : Fields) :
    (ofFields fields).typeName = Fields.typeName fields := by
  have hkind := kind?_ofFields fields
  cases hnode : ofFields fields with
  | known kind content attrs text marks =>
    rw [hnode] at hkind
    exact NodeKind.ofName?_eq_some_iff.mp hkind.symm
  | foreign name =>
    rw [ofFields, assemble] at hnode
    split at hnode
    · exact (Node.foreign.inj hnode).symm
    all_goals cases hnode

theorem content_ofFields {p q : Place} {fields : Fields}
    (h : p.opens? (Fields.kind? fields) = some q) :
    (ofFields fields).content = (Fields.contents fields).map ofFields := by
  rw [← contentOfFields_eq_map, ofFields, assemble]
  split
  · next hname =>
    rw [Fields.kind?, Fields.typeName, hname] at h
    cases h
  · next hname =>
    rw [Fields.kind?, Fields.typeName, hname] at h
    cases p <;> cases h
  · next hname =>
    rw [Fields.kind?, Fields.typeName, hname] at h
    cases p <;> cases h
  · rfl

theorem reaches_ofFields_iff {p q : Place} {fields : Fields} {y : Node} :
    (ofFields fields).Reaches p q y ↔
      ∃ g, y = ofFields g ∧ Place.Reaches Fields.kind? Fields.contents p fields q g :=
  Place.reaches_map_iff kind?_ofFields fun _ _ _ h => content_ofFields h

/-- What rendering skips of a document are the names of the objects left out, but for code. -/
theorem mem_skippedInBlocks_contentOfFields_iff {root : Fields} {name : String} :
    name ∈ skippedInBlocks (contentOfFields root) ↔
      ∃ p f, p ≠ .code ∧ Fields.LeftOut root p f ∧ Fields.typeName f = name := by
  rw [contentOfFields_eq_map, skippedInBlocks_eq_flatMap, List.flatMap_map, List.mem_flatMap]
  constructor
  · rintro ⟨top, htop, hname⟩
    obtain ⟨p, y, hnode, hp, hdrops, hy⟩ := (mem_skippedAt_iff (ofFields top) .block).mp hname
    obtain ⟨f, rfl, hreach⟩ := reaches_ofFields_iff.mp hnode
    rw [kind?_ofFields] at hdrops
    rw [typeName_ofFields] at hy
    exact ⟨p, f, hp, ⟨⟨top, htop, hreach⟩, hdrops⟩, hy⟩
  · rintro ⟨p, f, hp, ⟨⟨top, htop, hreach⟩, hdrops⟩, hname⟩
    have hnode := reaches_ofFields_iff.mpr ⟨f, rfl, hreach⟩
    rw [← kind?_ofFields] at hdrops
    rw [← typeName_ofFields] at hname
    exact ⟨top, htop, (mem_skippedAt_iff _ .block).mpr ⟨p, _, hnode, hp, hdrops, hname⟩⟩

end Node

theorem Warning.skipped_injective {m n : String} (h : Warning.skipped m = Warning.skipped n) :
    m = n := by
  have hcontext : [("node_type", Json.text m)] = [("node_type", Json.text n)] :=
    congrArg Warning.context h
  simpa using hcontext

theorem Warning.messages_skipped (names : List String) :
    (names.map skipped).map message = names.map skippedMessage := by
  rw [List.map_map]
  rfl

namespace Rendering

open Fields

theorem warnings_of_ofBlocks {blocks : List Node} {r : Rendering} (h : ofBlocks blocks = .ok r) :
    r.warnings = (SkippedNames.ofList (Node.skippedInBlocks blocks)).warnings := by
  rw [ofBlocks] at h
  cases hparts : Node.renderBlocks blocks with
  | error e =>
    rw [hparts] at h
    cases h
  | ok parts =>
    rw [hparts] at h
    cases h
    rfl

theorem mem_warnings_of_ofJson {root : Fields} {r : Rendering}
    (h : ofJson (.object root) = .ok r) {w : Warning} :
    w ∈ r.warnings ↔ ∃ p f, p ≠ .code ∧ LeftOut root p f ∧ w = .skipped (typeName f) := by
  rw [warnings_of_ofBlocks h, SkippedNames.warnings, List.mem_map]
  constructor
  · rintro ⟨name, hname, rfl⟩
    obtain ⟨p, f, hp, hf, rfl⟩ :=
      Node.mem_skippedInBlocks_contentOfFields_iff.mp (SkippedNames.mem_ofList.mp hname)
    exact ⟨p, f, hp, hf, rfl⟩
  · rintro ⟨p, f, hp, hf, rfl⟩
    have hname := Node.mem_skippedInBlocks_contentOfFields_iff.mpr ⟨p, f, hp, hf, rfl⟩
    exact ⟨_, SkippedNames.mem_ofList.mpr hname, rfl⟩

/-- Every warning names an object left out. Every object left out has its warning exactly if each
one left out in code shares its type name with one left out elsewhere. -/
theorem warnings_exact_iff {root : Fields} {r : Rendering} (h : ofJson (.object root) = .ok r) :
    (∀ w ∈ r.warnings, ∃ p f, LeftOut root p f ∧ w = .skipped (typeName f)) ∧
    (∀ p f, p ≠ .code → LeftOut root p f → .skipped (typeName f) ∈ r.warnings) ∧
    ((∀ p f, LeftOut root p f → .skipped (typeName f) ∈ r.warnings) ↔
      ∀ f, LeftOut root .code f →
        ∃ p g, p ≠ .code ∧ LeftOut root p g ∧ typeName g = typeName f) := by
  have hreported (p : Place) (f : Fields) (hp : p ≠ .code) (hf : LeftOut root p f) :
      .skipped (typeName f) ∈ r.warnings :=
    (mem_warnings_of_ofJson h).mpr ⟨p, f, hp, hf, rfl⟩
  refine ⟨fun w hw => ?_, hreported, ?_, ?_⟩
  · obtain ⟨p, f, -, hf, hname⟩ := (mem_warnings_of_ofJson h).mp hw
    exact ⟨p, f, hf, hname⟩
  · intro hall f hf
    obtain ⟨p, g, hp, hg, hname⟩ := (mem_warnings_of_ofJson h).mp (hall .code f hf)
    exact ⟨p, g, hp, hg, (Warning.skipped_injective hname).symm⟩
  · intro hcode p f hf
    by_cases hp : p = .code
    · subst hp
      obtain ⟨q, g, hq, hg, hname⟩ := hcode f hf
      exact hname ▸ hreported q g hq hg
    · exact hreported p f hp hf

/-- A mention in code, between texts that are kept, is left out without a warning. -/
theorem silent_in_code :
    let mention : Fields := [("type", .text "mention")]
    let letter (s : String) : Json := .object [("type", .text "text"), ("text", .text s)]
    let root : Fields := [("type", .text "doc"), ("content", .array [.object
      [("type", .text "codeBlock"),
        ("content", .array [letter "a", .object mention, letter "b"])]])]
    LeftOut root .code mention ∧ typeName mention = "mention" ∧
      ofJson (.object root) = .ok ⟨"```\nab\n```", []⟩ := by
  intro mention letter root
  refine ⟨⟨⟨_, List.mem_cons_self, ?_⟩, rfl⟩, rfl, rfl⟩
  exact .child rfl (List.mem_cons_of_mem _ List.mem_cons_self) (.self .code mention)

theorem warnings_exact_iff_nested :
    let mention : Fields := [("type", .text "mention")]
    let paragraph : Fields := [("type", .text "paragraph"), ("content", .array [.object mention])]
    let item : Fields := [("type", .text "listItem"), ("content", .array [.object paragraph])]
    let list : Fields :=
      [("type", .text "bulletList"), ("content", .array [.object paragraph, .object item])]
    let code : Fields := [("type", .text "codeBlock"), ("content", .array [.object mention])]
    let root : Fields := [("content", .array [.null, .object code, .object list])]
    ∃ r, ofJson (.object root) = .ok r ∧
      (LeftOut root .code mention ∧ LeftOut root .line mention ∧
        .skipped "mention" ∈ r.warnings) ∧
      LeftOut root .list paragraph ∧ .skipped "paragraph" ∈ r.warnings := by
  intro mention paragraph item list code root
  have hcode : StandsIn root .code mention :=
    ⟨code, List.mem_cons_self, .child rfl List.mem_cons_self (.self _ _)⟩
  have hline : StandsIn root .line mention :=
    ⟨list, List.mem_cons_of_mem _ List.mem_cons_self,
      .child rfl (List.mem_cons_of_mem _ List.mem_cons_self) <|
        .child rfl List.mem_cons_self <| .child rfl List.mem_cons_self (.self _ _)⟩
  have hlist : StandsIn root .list paragraph :=
    ⟨list, List.mem_cons_of_mem _ List.mem_cons_self, .child rfl List.mem_cons_self (.self _ _)⟩
  obtain ⟨r, h⟩ : ∃ r, ofJson (.object root) = .ok r := ⟨_, rfl⟩
  obtain ⟨-, hreported, -⟩ := warnings_exact_iff h
  exact ⟨r, h, ⟨⟨hcode, rfl⟩, ⟨hline, rfl⟩, hreported .line mention (by decide) ⟨hline, rfl⟩⟩,
    ⟨hlist, rfl⟩, hreported .list paragraph (by decide) ⟨hlist, rfl⟩⟩

end Rendering

end AdfMarkdown
