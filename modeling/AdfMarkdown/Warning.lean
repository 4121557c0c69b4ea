import AdfMarkdown.Json.Basic

/-! # Warnings

The type names skipped during one conversion, as a set kept in order, and the warning for each.
-/

namespace AdfMarkdown

/-- A finding that does not stop a conversion. -/
structure Warning where
  code : String
  message : String
  context : Fields
  deriving Repr

namespace Warning

/-- Equal up to the context. -/
def same (a b : Warning) : Bool := a.code == b.code && a.message == b.message

def unsupportedNode : String := "UNSUPPORTED_NODE"

def skippedMessage (name : String) : String := "skipped unsupported node type '" ++ name ++ "'"

def skipped (name : String) : Warning :=
  ⟨unsupportedNode, skippedMessage name, [("node_type", .text name)]⟩

end Warning

/-- The list with a name at its place in the order, unless it is there already. -/
def insertName (name : String) : List String → List String
  | [] => [name]
  | n :: rest =>
    if name = n then n :: rest
    else if name < n then name :: n :: rest
    else n :: insertName name rest

theorem mem_insertName {m name : String} {names : List String} :
    m ∈ insertName name names ↔ m = name ∨ m ∈ names := by
  induction names with
  | nil => simp [insertName]
  | cons n rest ih =>
    simp only [insertName]
    split
    · next h => subst h; simp
    · split
      · simp
      · simp only [List.mem_cons, ih]
        exact or_left_comm

theorem insertName_sorted {names : List String} (h : names.Pairwise (· < ·)) (name : String) :
    (insertName name names).Pairwise (· < ·) := by
  induction names with
  | nil => simp [insertName]
  | cons n rest ih =>
    rw [List.pairwise_cons] at h
    simp only [insertName]
    split
    · exact List.pairwise_cons.2 h
    · next hne =>
      split
      · next hlt =>
        refine List.pairwise_cons.2 ⟨fun m hm => ?_, List.pairwise_cons.2 h⟩
        rcases List.mem_cons.1 hm with rfl | hm
        · exact hlt
        · exact String.lt_trans hlt (h.1 m hm)
      · next hge =>
        refine List.pairwise_cons.2 ⟨fun m hm => ?_, ih h.2⟩
        rcases mem_insertName.1 hm with rfl | hm
        · exact Std.lt_of_le_of_ne (String.not_lt.1 hge) (Ne.symm hne)
        · exact h.1 m hm

/-- The type names skipped so far, each once, in the order of code points. -/
structure SkippedNames where
  names : List String
  sorted : names.Pairwise (· < ·)

namespace SkippedNames

def empty : SkippedNames := ⟨[], .nil⟩

def add (s : SkippedNames) (name : String) : SkippedNames :=
  ⟨insertName name s.names, insertName_sorted s.sorted name⟩

def ofList (names : List String) : SkippedNames := names.foldl add empty

def size (s : SkippedNames) : Nat := s.names.length

def contains (s : SkippedNames) (name : String) : Bool := s.names.contains name

def warnings (s : SkippedNames) : List Warning := s.names.map Warning.skipped

theorem mem_add {s : SkippedNames} {m name : String} :
    m ∈ (s.add name).names ↔ m = name ∨ m ∈ s.names := mem_insertName

theorem mem_foldl_add {s : SkippedNames} {m : String} {names : List String} :
    m ∈ (names.foldl add s).names ↔ m ∈ s.names ∨ m ∈ names := by
  induction names generalizing s with
  | nil => simp
  | cons n rest ih =>
    rw [List.foldl_cons, ih, mem_add, List.mem_cons, or_assoc, or_left_comm]

theorem mem_ofList {m : String} {names : List String} :
    m ∈ (ofList names).names ↔ m ∈ names := by
  simp [ofList, mem_foldl_add, empty]

end SkippedNames

end AdfMarkdown
