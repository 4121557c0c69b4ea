import AdfMarkdown.Conversion
import AdfMarkdown.Proofs.Reporting
import AdfMarkdown.Proofs.Unsupported
import Mathlib.Data.Finset.Sort
import Mathlib.Data.String.Basic

/-! # The order of warnings

Warnings come one for each type name, in the order of the names, and depend on the set of names
only. A message has a quotation mark after the name, so two messages are in the order of their names
unless one name goes on from the other with a character before that mark. No name that Markdown text
gives does so.
-/

namespace AdfMarkdown

namespace Text

theorem append_lt_append_iff (p s t : List Char) : p ++ s < p ++ t ↔ s < t := by
  induction p with
  | nil => rfl
  | cons d p ih => rw [List.cons_append, List.cons_append, List.cons_lt_cons_self, ih]

/-- A character after two texts turns their order round if the greater one goes on from the other
with a smaller character. -/
theorem append_singleton_lt_iff {s t : List Char} {x : Char} (h : s < t) :
    s ++ [x] < t ++ [x] ↔ ¬ ∃ c rest, t = s ++ c :: rest ∧ c < x := by
  induction s generalizing t with
  | nil =>
    cases t with
    | nil => exact absurd h (List.lt_irrefl _)
    | cons d t =>
      have hrest : [] < t ++ [x] := by cases t <;> exact List.nil_lt_cons _ _
      simp [List.cons_lt_cons_iff, hrest, le_iff_lt_or_eq]
  | cons d s ih =>
    cases t with
    | nil => exact absurd h (List.not_lt_nil _)
    | cons e t =>
      rcases List.cons_lt_cons_iff.mp h with hde | ⟨rfl, hst⟩
      · simp [List.cons_lt_cons_iff, hde, hde.ne']
      · simp [ih hst]

theorem surrounded_lt_iff {s t : String} (h : s < t) (before : String) (x : Char) :
    before ++ s ++ String.singleton x < before ++ t ++ String.singleton x ↔
      ¬ ∃ c rest, t.toList = s.toList ++ c :: rest ∧ c < x := by
  simp only [String.lt_iff_toList_lt, String.toList_append, String.toList_singleton,
    List.append_assoc, append_lt_append_iff]
  exact append_singleton_lt_iff (String.lt_iff_toList_lt.mp h)

theorem surrounded_injective (before after : String) :
    Function.Injective fun s => before ++ s ++ after := by
  intro s t h
  have hchars := congrArg String.toList h
  simp only [String.toList_append] at hchars
  exact String.toList_injective (List.append_cancel_left (List.append_cancel_right hchars))

end Text

namespace Warning

/-- The first name is the second one followed by a character that comes before the quotation mark
with which a message closes a name, and whatever comes after it. -/
def Overtakes (m n : String) : Prop := ∃ c rest, m.toList = n.toList ++ c :: rest ∧ c < '\''

theorem Overtakes.lt {m n : String} (h : Overtakes m n) : n < m := by
  obtain ⟨c, rest, hm, -⟩ := h
  rw [String.lt_iff_toList_lt, hm]
  have hempty : n.toList ++ [] < n.toList ++ c :: rest :=
    List.append_left_lt (List.nil_lt_cons c rest)
  simpa using hempty

theorem not_overtakes {m : String} (h : ∀ c ∈ m.toList, '\'' ≤ c) (n : String) :
    ¬ Overtakes m n := by
  rintro ⟨c, rest, hm, hc⟩
  exact absurd hc (not_lt.mpr (h c (by simp [hm])))

/-- Messages are in the order of their names unless the greater name overtakes the other one. -/
theorem skippedMessage_lt_iff {m n : String} (h : n < m) :
    skippedMessage n < skippedMessage m ↔ ¬ Overtakes m n :=
  Text.surrounded_lt_iff h "skipped unsupported node type '" '\''

theorem pairwise_skippedMessage_iff {names : List String} (h : names.Pairwise (· < ·)) :
    (names.map skippedMessage).Pairwise (· < ·) ↔ ∀ m ∈ names, ∀ n ∈ names, ¬ Overtakes m n := by
  rw [List.pairwise_map]
  constructor
  · intro hmessages m hm n hn hover
    let InOrder (a b : String) : Prop := a < b → skippedMessage a < skippedMessage b
    have hsymm : Std.Symm fun a b => InOrder a b ∧ InOrder b a := ⟨fun _ _ h => h.symm⟩
    have hboth := (h.and hmessages).imp fun {a b} (hab : a < b ∧ _) =>
      (⟨fun _ => hab.2, fun hba => absurd hba hab.1.asymm⟩ : InOrder a b ∧ InOrder b a)
    have hall := hboth.forall_of_forall fun a _ =>
      ⟨fun h => absurd h (lt_irrefl a), fun h => absurd h (lt_irrefl a)⟩
    exact (skippedMessage_lt_iff hover.lt).mp ((hall hn hm).1 hover.lt) hover
  · intro hnone
    exact h.imp_of_mem fun {n m} hn hm hlt => (skippedMessage_lt_iff hlt).mpr (hnone m hm n hn)

theorem skippedMessage_injective : Function.Injective skippedMessage :=
  Text.surrounded_injective "skipped unsupported node type '" "'"

end Warning

theorem SkippedNames.names_ofList (names : List String) :
    (ofList names).names = names.toFinset.sort := by
  have hset : names.toFinset = (ofList names).names.toFinset := by
    ext name
    rw [List.mem_toFinset, List.mem_toFinset, mem_ofList]
  have hsorted := (ofList names).sorted
  rw [hset]
  exact ((List.toFinset_sort _ (hsorted.imp ne_of_lt)).mpr (hsorted.imp le_of_lt)).symm

/-- The type names that rendering a document in JSON leaves out. -/
def Json.skippedNames : Json → List String
  | .object fields => Node.skippedInBlocks (Node.contentOfFields fields)
  | _ => []

namespace Warning

/-- The warnings are those for the set of names, in the order of the names. No message comes twice,
and the messages are in order exactly if no name overtakes another one. -/
structure SortedByName (names : List String) (warnings : List Warning) : Prop where
  eq : warnings = names.toFinset.sort.map skipped
  nodup : (warnings.map message).Nodup
  messages : (warnings.map message).Pairwise (· < ·) ↔ ∀ m ∈ names, ∀ n ∈ names, ¬ Overtakes m n

theorem sortedByName_ofList (names : List String) :
    SortedByName names (SkippedNames.ofList names).warnings where
  eq := by rw [SkippedNames.warnings, SkippedNames.names_ofList]
  nodup := by
    rw [SkippedNames.warnings, messages_skipped]
    exact List.Nodup.map skippedMessage_injective ((SkippedNames.ofList names).sorted.imp ne_of_lt)
  messages := by
    rw [SkippedNames.warnings, messages_skipped,
      pairwise_skippedMessage_iff (SkippedNames.ofList names).sorted]
    simp only [SkippedNames.mem_ofList]

theorem sortedByName_ofJson {document : Json} {r : Rendering}
    (h : Rendering.ofJson document = .ok r) : SortedByName document.skippedNames r.warnings := by
  have hempty : SortedByName [] [] := sortedByName_ofList []
  cases document with
  | object fields =>
    rw [Rendering.warnings_of_ofBlocks h]
    exact sortedByName_ofList _
  | _ => cases h; exact hempty

end Warning

namespace Markdown

/-- The types of the blocks of Markdown that have no node. -/
def unsupportedTypes : List String := ["html_block", "indented_code", "table", "thematic_break"]

namespace Block

def Records (table : LinkDestination.Table) (t : Token) : Prop :=
  ∀ name ∈ Token.skippedOf table t, name ∈ unsupportedTypes

variable {table : LinkDestination.Table} {ctx : InlineContext}

theorem records_leaf {t : Token} (name type : String) (hname : t.name = name)
    (htype : t.canonicalType = type) (hleaf : name ≠ "list" ∧ name ≠ "block_quote")
    (h : name = "blank_line" ∨ type ∈ Token.blockTypes ++ unsupportedTypes) : Records table t := by
  intro n hn
  rw [Token.skippedOf_of_name_ne (hname ▸ hleaf.1) (hname ▸ hleaf.2)] at hn
  split at hn
  · next hun =>
    obtain rfl := List.mem_singleton.mp hn
    rw [Token.unsupported, Bool.and_eq_true, decide_eq_true_iff, decide_eq_true_iff, hname,
      htype] at hun
    rw [htype]
    exact ((List.mem_append.mp (h.resolve_left hun.1)).resolve_left hun.2)
  · cases hn

mutual

theorem records_toTokens : ∀ (b : Block) (depth : Nat) (boxed : Bool),
    ∀ t ∈ toTokens ctx depth boxed b, Records table t
  | quote blocks, depth, boxed, t, ht => by
    rw [toTokens, List.mem_singleton] at ht
    subst ht
    intro name hname
    rw [Token.skippedOf_quotation rfl, List.mem_flatMap] at hname
    obtain ⟨u, hu, hname⟩ := hname
    exact records_listToTokens blocks (depth + 1) false u hu name hname
  | list sign start items, depth, boxed, t, ht => by
    rw [toTokens.eq_def, List.mem_singleton] at ht
    subst ht
    intro name hname
    rw [Token.skippedOf_list rfl, List.mem_flatMap] at hname
    obtain ⟨i, hi, hname⟩ := hname
    obtain ⟨u, hu, hname⟩ := List.mem_flatMap.mp hname
    exact records_itemTokens items (depth + 1) i (List.mem_filter.mp hi).1 u hu name hname
  | definition _, depth, boxed, t, ht => by cases ht
  | blankLine, depth, boxed, t, ht => by
    obtain rfl := List.mem_singleton.mp ht
    exact records_leaf "blank_line" "blank_line" rfl rfl (by decide) (by decide)
  | thematicBreak, depth, boxed, t, ht => by
    obtain rfl := List.mem_singleton.mp ht
    exact records_leaf "thematic_break" "thematic_break" rfl rfl (by decide) (by decide)
  | paragraph _, depth, boxed, t, ht => by
    obtain rfl := List.mem_singleton.mp ht
    exact records_leaf "paragraph" "paragraph" rfl rfl (by decide) (by decide)
  | heading .., depth, boxed, t, ht => by
    obtain rfl := List.mem_singleton.mp ht
    exact records_leaf "heading" "heading" rfl rfl (by decide) (by decide)
  | indentedCode _, depth, boxed, t, ht => by
    obtain rfl := List.mem_singleton.mp ht
    exact records_leaf "block_code" "indented_code" rfl rfl (by decide) (by decide)
  | fencedCode .., depth, boxed, t, ht => by
    obtain rfl := List.mem_singleton.mp ht
    exact records_leaf "block_code" "block_code" rfl rfl (by decide) (by decide)
  | html _, depth, boxed, t, ht => by
    obtain rfl := List.mem_singleton.mp ht
    exact records_leaf "block_html" "html_block" rfl rfl (by decide) (by decide)
  | Block.table .., depth, boxed, t, ht => by
    obtain rfl := List.mem_singleton.mp ht
    exact records_leaf "table" "table" rfl rfl (by decide) (by decide)

theorem records_listToTokens : ∀ (bs : List Block) (depth : Nat) (boxed : Bool),
    ∀ t ∈ listToTokens ctx depth boxed bs, Records table t
  | [], depth, boxed, t, ht => by
    rw [listToTokens] at ht
    cases ht
  | b :: bs, depth, boxed, t, ht => by
    rw [listToTokens, List.mem_append] at ht
    rcases ht with ht | ht
    · exact records_toTokens b depth boxed t ht
    · exact records_listToTokens bs depth false t ht

theorem records_itemTokens : ∀ (items : List (List Block)) (depth : Nat),
    ∀ t ∈ itemTokens ctx depth items, ∀ u ∈ t.children, Records table u
  | [], depth, t, ht => by
    rw [itemTokens] at ht
    cases ht
  | item :: items, depth, t, ht => by
    rw [itemTokens, List.mem_cons] at ht
    rcases ht with rfl | ht
    · intro u hu
      split at hu
      · exact records_listToTokens item depth true u hu
      · exact records_listToTokens item depth false u hu
    · exact records_itemTokens items depth t ht

end

end Block

theorem mem_unsupportedTypes_of_skipped {ext : Extensions} {markdown name : String}
    (h : name ∈ Token.skippedInBlocks (Conversion.tokens (read ext) markdown)) :
    name ∈ unsupportedTypes := by
  rw [Conversion.tokens, Token.skippedInBlocks_canonicalList, List.mem_flatMap] at h
  obtain ⟨t, ht, hname⟩ := h
  exact Block.records_listToTokens _ 0 false t ht name hname

end Markdown

namespace Warning

theorem pairwise_messages_ofMarkdown {config : Config} {parser : Markdown.Parser}
    (hparser : config.parser? = some parser) (markdown : String) :
    ((Conversion.ofMarkdown parser markdown).warnings.map message).Pairwise (· < ·) := by
  obtain rfl := Config.eq_read_of_parser? hparser
  refine (sortedByName_ofList _).messages.mpr fun m hm n _ => not_overtakes ?_ n
  have hletters : ∀ m ∈ Markdown.unsupportedTypes, ∀ c ∈ m.toList, '\'' ≤ c := by
    simp [Markdown.unsupportedTypes]
  exact hletters m (Markdown.mem_unsupportedTypes_of_skipped hm)

/-- The warnings of a conversion are those for the set of the names left out, in the order of the
names, and so are the messages for what Markdown text leaves out with the default extensions or some
of them. How often and in what order names are recorded makes no difference. -/
theorem warnings_sortedByName :
    (∀ tokens : List Token,
      SortedByName (Token.skippedInBlocks tokens) (Conversion.ofTokens tokens).warnings) ∧
    (∀ (document : Json) (r : Rendering), Rendering.ofJson document = .ok r →
      SortedByName document.skippedNames r.warnings) ∧
    (∀ (config : Config) (parser : Markdown.Parser), config.parser? = some parser →
      ∀ markdown : String,
        ((Conversion.ofMarkdown parser markdown).warnings.map message).Pairwise (· < ·)) ∧
    ∀ xs ys : List String, (∀ name, name ∈ xs ↔ name ∈ ys) →
      (SkippedNames.ofList xs).names = (SkippedNames.ofList ys).names ∧
        (SkippedNames.ofList xs).warnings = (SkippedNames.ofList ys).warnings := by
  refine ⟨fun tokens => sortedByName_ofList _, fun document r h => sortedByName_ofJson h,
    fun config parser hparser => pairwise_messages_ofMarkdown hparser, fun xs ys h => ?_⟩
  have hset : xs.toFinset = ys.toFinset := by
    ext name
    rw [List.mem_toFinset, List.mem_toFinset, h]
  have hnames : (SkippedNames.ofList xs).names = (SkippedNames.ofList ys).names := by
    rw [SkippedNames.names_ofList, SkippedNames.names_ofList, hset]
  exact ⟨hnames, by rw [SkippedNames.warnings, SkippedNames.warnings, hnames]⟩

/-- A document with a type name that is the start of another one, which the quotation mark comes
before, a text with two blocks that have no node, and the same names recorded another way. -/
theorem warnings_sortedByName_start :
    let node (name : String) : Json := .object [("type", .text name)]
    let document : Json := .object [("content", .array [node "a", node "ab", node "a"])]
    let warnings := (Conversion.ofMarkdown .default "> ***\n\n- <p>").warnings
    (∃ r, Rendering.ofJson document = .ok r ∧ r.warnings = [skipped "a", skipped "ab"] ∧
      (r.warnings.map message).Pairwise (· < ·)) ∧
    (warnings = [skipped "html_block", skipped "thematic_break"] ∧
      (warnings.map message).Pairwise (· < ·)) ∧
    (SkippedNames.ofList ["a", "ab", "a"]).warnings =
      (SkippedNames.ofList ["ab", "a"]).warnings := by
  intro node document warnings
  obtain ⟨-, hrendered, hread, hset⟩ := warnings_sortedByName
  have hr : Rendering.ofJson document = .ok ⟨"", [skipped "a", skipped "ab"]⟩ := rfl
  have hnames : (SkippedNames.ofTokens (Conversion.tokens .default "> ***\n\n- <p>")).names =
      ["html_block", "thematic_break"] := by
    decide +kernel
  have hwarnings : warnings = [skipped "html_block", skipped "thematic_break"] := by
    simp only [warnings, Conversion.ofMarkdown, Conversion.warnings_ofTokens, hnames]
    rfl
  refine ⟨⟨_, hr, rfl, (hrendered document _ hr).messages.mpr ?_⟩,
    ⟨hwarnings, hread .default .default Config.parser?_default _⟩, ?_⟩
  · have hletters : ∀ m ∈ ["a", "ab", "a"], ∀ c ∈ m.toList, '\'' ≤ c := by simp
    exact fun m hm n _ => not_overtakes (hletters m hm) n
  · refine (hset ["a", "ab", "a"] ["ab", "a"] fun name => ?_).2
    simp only [List.mem_cons, List.not_mem_nil, or_false]
    rw [or_comm, or_assoc, or_self]

/-- A blank comes before the quotation mark, so the message for the name that goes on with a blank
is the smaller one and stands second. -/
theorem messages_not_pairwise_of_overtakes :
    let node (name : String) : Json := .object [("type", .text name)]
    let document : Json :=
      .object [("type", .text "doc"), ("content", .array [node "a", node "a b"])]
    Rendering.ofJson document = .ok ⟨"", [skipped "a", skipped "a b"]⟩ ∧
      ¬ ([skipped "a", skipped "a b"].map message).Pairwise (· < ·) := by
  intro node document
  refine ⟨rfl, fun h => ?_⟩
  have hlt : skippedMessage "a" < skippedMessage "a b" := (List.pairwise_pair.mp h)
  have hname : ("a" : String) < "a b" := by decide
  exact (skippedMessage_lt_iff hname).mp hlt ⟨' ', ['b'], by decide, by decide⟩

end Warning

end AdfMarkdown
