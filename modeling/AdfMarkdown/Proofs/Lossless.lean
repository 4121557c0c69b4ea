import AdfMarkdown.Proofs.Rereading
import AdfMarkdown.Proofs.Schema
import Mathlib.Tactic.IntervalCases

/-! # What writing keeps

A document made from well-typed tokens is read back from its JSON as it was, but for the marks of
links that lead nowhere: the builder of runs keeps these, and reading leaves them out. So the
document is read back whole exactly when no run in it has such a mark.
-/

namespace AdfMarkdown

def Mark.leads (m : Mark) : Bool := m.kind ≠ .link || m.href.getD "" ≠ ""

def Mark.Proper (m : Mark) : Prop := m.kind = .link ↔ m.href.isSome

theorem Mark.reread?_of_proper {m : Mark} (h : m.Proper) :
    m.reread? = if m.leads then some m else none := by
  obtain ⟨kind, href⟩ := m
  cases href with
  | none =>
    have hk : kind ≠ .link := by simpa [Mark.Proper] using h
    simp [Mark.reread?, Mark.leads, hk]
  | some s =>
    obtain rfl : kind = .link := by simpa [Mark.Proper] using h
    by_cases hs : s = "" <;> simp [Mark.reread?, Mark.leads, Mark.link, hs]

namespace Node

def marks : Node → List Mark
  | known _ _ _ _ marks => marks
  | foreign _ => []

mutual

/-- The node without the marks of links that lead nowhere. -/
def leading : Node → Node
  | known kind content attrs text marks =>
    known kind (leadingAll content) attrs text (marks.filter Mark.leads)
  | foreign name => foreign name

def leadingAll : List Node → List Node
  | [] => []
  | x :: xs => leading x :: leadingAll xs

end

theorem leadingAll_eq_map (xs : List Node) : leadingAll xs = xs.map leading := by
  induction xs with
  | nil => simp [leadingAll]
  | cons x xs ih => simp [leadingAll, ih]

def Leads (x : Node) : Prop := ∀ m ∈ x.marks, m.leads

/-- A tree has nothing to lose exactly if all links in it lead somewhere. -/
theorem leading_eq_self_iff (x : Node) : x.leading = x ↔ x.Everywhere Leads := by
  induction x using Node.induct with
  | step x ih =>
    rw [everywhere_iff]
    cases x with
    | foreign name => simp [leading, Leads, marks, content]
    | known kind content attrs text marks =>
      have hcontent : leadingAll content = content ↔ ∀ y ∈ content, y.Everywhere Leads := by
        calc leadingAll content = content
            ↔ content.map leading = content.map id := by rw [leadingAll_eq_map, List.map_id]
          _ ↔ ∀ y ∈ content, y.leading = y := List.map_inj_left
          _ ↔ ∀ y ∈ content, y.Everywhere Leads := forall₂_congr ih
      rw [leading, known.injEq, hcontent, List.filter_eq_self]
      simp [Leads, Node.marks, Node.content, and_comm]

theorem attributesFor_heading {n : Nat} (h1 : 1 ≤ n) (h6 : n ≤ 6) :
    attributesFor .heading (.object [("level", .int n)]) = [("level", .int n)] := by
  interval_cases n <;> rfl

theorem attributesFor_orderedList (n : Nat) :
    attributesFor .orderedList (.object (if n = 1 then [] else [("order", .int n)])) =
      if n = 1 then [] else [("order", .int n)] := by
  by_cases h : n = 1 <;> simp [h, attributesFor, Json.get?, Fields.get?, listOrder?]

theorem attributesFor_codeBlock (s : String) :
    attributesFor .codeBlock (.object (if s = "" then [] else [("language", .text s)])) =
      if s = "" then [] else [("language", .text s)] := by
  by_cases h : s = "" <;> simp [h, attributesFor, Json.get?, Fields.get?, codeLanguage?]

/-- The node has the fields of its kind only, its attributes are in their range and its marks are
proper ones. -/
def Faithful : Node → Prop
  | known .text content attrs text marks =>
    content = [] ∧ attrs = [] ∧ text.isSome ∧ ∀ m ∈ marks, m.Proper
  | known .hardBreak content attrs text marks =>
    content = [] ∧ attrs = [] ∧ text = none ∧ marks = []
  | known kind _ attrs text marks =>
    attributesFor kind (.object attrs) = attrs ∧ text = none ∧ marks = []
  | foreign _ => False

theorem Faithful.ownFields {kind : NodeKind} {content : List Node} {attrs : Fields}
    {text : Option String} {marks : List Mark}
    (h : Faithful (known kind content attrs text marks)) :
    OwnFields kind content attrs text marks ∧ ∀ m ∈ marks, m.Proper := by
  cases kind with
  | text =>
    obtain ⟨rfl, rfl, htext, hproper⟩ := h
    exact ⟨⟨rfl, fun _ => rfl, by simp [htext], by simp⟩, hproper⟩
  | hardBreak =>
    obtain ⟨rfl, rfl, rfl, rfl⟩ := h
    exact ⟨⟨rfl, fun _ => rfl, by simp, fun _ => rfl⟩, by simp⟩
  | _ =>
    obtain ⟨hattrs, rfl, rfl⟩ := h
    exact ⟨⟨hattrs, by simp, by simp, fun _ => rfl⟩, by simp⟩

theorem reread_eq_leading (x : Node) : x.Everywhere Faithful → x.reread = x.leading := by
  induction x using Node.induct with
  | step x ih =>
    intro h
    obtain ⟨hself, hbelow⟩ := everywhere_iff.mp h
    cases x with
    | foreign name => cases hself
    | known kind content attrs text marks =>
      obtain ⟨hown, hproper⟩ := Faithful.ownFields hself
      have hcontent : rereadAll content = leadingAll content := by
        rw [rereadAll_eq_map, leadingAll_eq_map]
        exact List.map_congr_left fun y hy => ih y hy (hbelow y hy)
      have hmarks : marks.filterMap Mark.reread? = marks.filter Mark.leads := by
        rw [← List.filterMap_eq_filter]
        refine List.filterMap_congr fun m hm => ?_
        rw [Mark.reread?_of_proper (hproper m hm)]
        simp [Option.guard]
      rw [hown.reread_eq, hcontent, hmarks, leading]

theorem InlinePiece.faithful {x : Node} (hx : InlinePiece x) (hm : ∀ m ∈ x.marks, m.Proper) :
    Faithful x := by
  rcases hx with rfl | ⟨s, marks, rfl, -, -⟩
  · exact ⟨rfl, rfl, rfl, rfl⟩
  · exact ⟨rfl, rfl, rfl, hm⟩

end Node

open Node

namespace Token

/-- The attributes of a heading, a list or a code token are of the right type and in range. -/
def Typed (t : Token) : Prop :=
  (t.name = "heading" → ∀ v, t.attr? "level" = some v → ∃ n : Nat, 1 ≤ n ∧ n ≤ 6 ∧ v = .int n) ∧
  (t.name = "list" → ∀ v, t.attr? "start" = some v → ∃ n : Nat, v = .int n) ∧
  (t.name = "block_code" → ∀ v, t.attr? "language" = some v → ∃ s, s ≠ "" ∧ v = .text s)

theorem attributesFor_headingAttrs {t : Token} (ht : t.Typed) (hname : t.name = "heading") :
    attributesFor .heading (.object t.headingAttrs) = t.headingAttrs := by
  obtain ⟨n, h1, h6, hv⟩ : ∃ n : Nat, 1 ≤ n ∧ n ≤ 6 ∧ (t.attr? "level").getD (.int 1) = .int n :=
    attr?_getD ⟨1, by decide, by decide, rfl⟩ (ht.1 hname)
  rw [headingAttrs, hv]
  exact attributesFor_heading h1 h6

theorem attributesFor_listAttrs {t : Token} (ht : t.Typed) (hname : t.name = "list")
    (hord : t.ordered = true) :
    attributesFor .orderedList (.object t.listAttrs) = t.listAttrs := by
  obtain ⟨n, hv⟩ : ∃ n : Nat, (t.attr? "start").getD (.int 1) = .int n :=
    attr?_getD ⟨1, rfl⟩ (ht.2.1 hname)
  rw [listAttrs_eq hord hv]
  exact attributesFor_orderedList n

theorem attributesFor_codeAttrs {t : Token} (ht : t.Typed) (hname : t.name = "block_code") :
    attributesFor .codeBlock (.object t.codeAttrs) = t.codeAttrs := by
  rw [codeAttrs]
  cases hv : t.attr? "language" with
  | none => rfl
  | some v =>
    obtain ⟨s, hs, rfl⟩ := ht.2.2 hname v hv
    simpa [Json.truthy, hs] using attributesFor_codeBlock s

section Marks

variable {R : Mark → Prop}

theorem forall_mem_marks_inlineNodes (hcode : R .code) (t : Token) :
    (t.Everywhere fun s => ∀ m ∈ s.ownMarks, R m) → ∀ marks : List Mark, (∀ m ∈ marks, R m) →
      ∀ x ∈ inlineNodes marks t, ∀ m ∈ x.marks, R m := by
  induction t using Token.induct with
  | step t ih =>
    intro h marks hmarks x hx
    obtain ⟨hself, hbelow⟩ := Token.everywhere_iff.mp h
    rcases mem_inlineNodes_cases hx with ⟨s, -, rfl | rfl⟩ | rfl | ⟨u, hu, hx⟩
    · exact hmarks
    · exact List.forall_mem_append.mpr ⟨hmarks, List.forall_mem_singleton.mpr hcode⟩
    · exact List.forall_mem_nil _
    · exact ih u hu (hbelow u hu) _ (List.forall_mem_append.mpr ⟨hmarks, hself⟩) x hx

theorem forall_mem_marks_inlineContent (hcode : R .code) {ts : List Token}
    (h : ∀ t ∈ ts, t.Everywhere fun s => ∀ m ∈ s.ownMarks, R m) :
    ∀ x ∈ inlineContent ts, ∀ m ∈ x.marks, R m := by
  refine forall_mem_consolidate ?_ fun x hx => ?_
  · intro x y z hx _ hz
    obtain ⟨c, a, s, m, c', a', s', rfl, rfl, rfl⟩ := merge?_eq_some_iff.mp hz
    exact hx
  · rw [inlineNodesOf_eq_flatMap, List.mem_flatMap] at hx
    obtain ⟨t, ht, hx⟩ := hx
    exact forall_mem_marks_inlineNodes hcode t (h t ht) [] (List.forall_mem_nil _) x hx

theorem proper_of_mem_ownMarks {t : Token} {m : Mark} (hm : m ∈ t.ownMarks) : m.Proper := by
  rcases mem_ownMarks_cases hm with rfl | rfl | ⟨-, rfl⟩ <;>
    simp [Mark.Proper, Mark.em, Mark.strong, Mark.link]

theorem proper_of_mem_inlineContent (ts : List Token) :
    ∀ x ∈ inlineContent ts, ∀ m ∈ x.marks, m.Proper :=
  forall_mem_marks_inlineContent (by simp [Mark.Proper, Mark.code]) fun _ _ _ _ _ hm =>
    proper_of_mem_ownMarks hm

end Marks

theorem handsOn_faithful : HandsOn Typed Faithful where
  text t kind attrs ht htext _ := by
    have hpieces := inlinePiece_of_mem_inlineContent t.children
    have hproper := proper_of_mem_inlineContent t.children
    refine everywhere_of_inlinePieces hpieces ?_ fun x hx => (hpieces x hx).faithful (hproper x hx)
    rcases htext with ⟨-, rfl, rfl⟩ | ⟨hname, rfl, rfl⟩
    · exact ⟨rfl, rfl, rfl⟩
    · exact ⟨attributesFor_headingAttrs ht hname, rfl, rfl⟩
  code t ht hname := by
    refine everywhere_of_inlinePieces (fun _ => inlinePiece_of_mem_codeBlock)
      ⟨attributesFor_codeAttrs ht hname, rfl, rfl⟩ fun x hx => ?_
    obtain ⟨s, -, rfl⟩ := exists_of_mem_codeBlock hx
    exact ⟨rfl, rfl, rfl, List.forall_mem_nil _⟩
  list t ht hname := by
    rw [list]
    cases hord : t.ordered with
    | true => exact ⟨attributesFor_listAttrs ht hname hord, rfl, rfl⟩
    | false =>
      have hattrs : t.listAttrs = [] := by simp [listAttrs, hord]
      rw [hattrs]
      exact ⟨rfl, rfl, rfl⟩
  quotation t _ := ⟨rfl, rfl, rfl⟩
  item t _ := ⟨rfl, rfl, rfl⟩

def LinkLeads (t : Token) : Prop := t.name = "link" → t.url ≠ ""

theorem leads_of_mem_ownMarks {t : Token} (ht : t.LinkLeads) {m : Mark} (hm : m ∈ t.ownMarks) :
    m.leads := by
  rcases mem_ownMarks_cases hm with rfl | rfl | ⟨hname, rfl⟩
  · rfl
  · rfl
  · simp [Mark.leads, Mark.link, ht hname]

theorem handsOn_leads : HandsOn (fun t => t.Everywhere LinkLeads) Leads where
  text t kind attrs ht htext _ := by
    have hleads := forall_mem_marks_inlineContent (R := fun m => m.leads) (by decide)
      fun u hu s hs _ hm => leads_of_mem_ownMarks (ht s (.child hu hs)) hm
    exact everywhere_of_inlinePieces (inlinePiece_of_mem_inlineContent t.children)
      (List.forall_mem_nil _) hleads
  code t _ _ := by
    refine everywhere_of_inlinePieces (fun _ => inlinePiece_of_mem_codeBlock)
      (List.forall_mem_nil _) fun x hx => ?_
    obtain ⟨s, -, rfl⟩ := exists_of_mem_codeBlock hx
    exact List.forall_mem_nil _
  list t _ _ := List.forall_mem_nil _
  quotation t _ := List.forall_mem_nil _
  item t _ := List.forall_mem_nil _

end Token

/-- A document made from well-typed tokens is read back without the marks of links that lead
nowhere; so it is read back whole exactly if it has none, as where every link token has a
destination. -/
theorem ofJson?_toJson_ofTokens {tokens : List Token} (h : ∀ t ∈ tokens, t.Everywhere Token.Typed) :
    let doc := Node.ofTokens tokens
    Node.ofJson? doc.toJson = some doc.leading ∧
      (Node.ofJson? doc.toJson = some doc ↔ doc.Everywhere Leads) ∧
      ((∀ t ∈ tokens, t.Everywhere Token.LinkLeads) → Node.ofJson? doc.toJson = some doc) := by
  intro doc
  have hfaithful : doc.Everywhere Faithful :=
    Token.handsOn_faithful.everywhere_ofTokens h ⟨rfl, rfl, rfl⟩
  have hread : Node.ofJson? doc.toJson = some doc.leading := by
    rw [ofJson?_toJson, reread_eq_leading doc hfaithful]
  have hwhole : Node.ofJson? doc.toJson = some doc ↔ doc.Everywhere Leads := by
    rw [hread, Option.some_inj, leading_eq_self_iff]
  refine ⟨hread, hwhole, fun hlinks => hwhole.mpr ?_⟩
  exact Token.handsOn_leads.everywhere_ofTokens (fun t ht => (hlinks t ht).everywhere)
    (List.forall_mem_nil _)

/-- A heading, a list from zero and code, with a link that leads nowhere around bold text. -/
theorem ofJson?_toJson_ofTokens_nested :
    let tokens : List Token :=
      [.branchWith "heading" [("level", .int 6)]
          [.branchWith "link" [("url", .text "")] [.branch "strong" [.leaf "text" "a"]],
            .leaf "codespan" "b"],
        .branchWith "list" [("ordered", .bool true), ("start", .int 0)]
          [.branch "list_item"
            [.branch "block_quote"
              [.branchWith "block_code" [("language", .text "c")] [], .bare "thematic_break"]]]]
    (∀ t ∈ tokens, t.Everywhere Token.Typed) ∧
      Node.ofJson? (Node.ofTokens tokens).toJson =
        some (branch .doc
          [branch .heading [run "a" [.strong], run "b" [.code]] [("level", .int 6)],
            branch .orderedList
              [branch .listItem
                [branch .blockquote [branch .codeBlock [] [("language", .text "c")]] []] []]
              [("order", .int 0)]] []) := by
  intro tokens
  have htyped : ∀ t ∈ tokens, t.Everywhere Token.Typed := by
    have hlevel : ∃ n : Nat, 1 ≤ n ∧ n ≤ 6 ∧ (6 : Int) = n := ⟨6, by decide, by decide, rfl⟩
    have hstart : ∃ n : Nat, (0 : Int) = n := ⟨0, rfl⟩
    simpa [tokens, Token.branch, Token.branchWith, Token.leaf, Token.bare, Token.everywhere_mk,
      Token.Typed, Token.name, Token.attr?, Token.attrs?, Fields.get?] using ⟨hlevel, hstart⟩
  refine ⟨htyped, ?_⟩
  obtain ⟨hread, -⟩ := ofJson?_toJson_ofTokens htyped
  rw [hread]
  rfl

/-- A link that leads nowhere is written, and its mark is not read back. -/
theorem ofJson?_toJson_ne_of_empty_url :
    let tokens : List Token :=
      [.branch "paragraph" [.branchWith "link" [("url", .text "")] [.leaf "text" "a"]]]
    (∀ t ∈ tokens, t.Everywhere Token.Typed) ∧
      Node.ofJson? (Node.ofTokens tokens).toJson ≠ some (Node.ofTokens tokens) := by
  intro tokens
  have hdoc : Node.ofTokens tokens =
      branch .doc [branch .paragraph [run "a" [.link ""]] []] [] := rfl
  constructor
  · simp [tokens, Token.branch, Token.branchWith, Token.leaf, Token.everywhere_mk, Token.Typed,
      Token.name]
  · rw [ofJson?_toJson, hdoc, Ne, Option.some_inj]
    simp [reread, rereadAll, branch, run, Mark.reread?, Mark.link]

end AdfMarkdown
