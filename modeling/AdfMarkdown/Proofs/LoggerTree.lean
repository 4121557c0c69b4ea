import AdfMarkdown.Log.Registry
import Mathlib.Data.List.Find
import Mathlib.Data.List.Infix

/-! # The tree of loggers

A logger stands right below the nearest name above it that has a logger, whatever the order in which
the loggers came to be. Only the names that the name of the root logger begins with are passed over
by loggers that were there before them.
-/

namespace AdfMarkdown.Log.Registry

section Names

theorem suffix_of_mem_beginnings {p : String} : ∀ {cs : List Char},
    p ∈ beginnings cs → '.' :: p.toList.reverse <:+ cs
  | [], h => by simp [beginnings] at h
  | d :: cs, h => by
    unfold beginnings at h
    split at h
    · next c rest heq =>
      obtain ⟨rfl, rfl⟩ := List.cons.inj heq
      rcases List.mem_cons.mp h with rfl | h
      · simp
      · exact (suffix_of_mem_beginnings h).trans ⟨['.', c], rfl⟩
    · next heq =>
      obtain ⟨rfl, rfl⟩ := List.cons.inj heq
      exact (suffix_of_mem_beginnings h).trans (List.suffix_cons _ _)
    · simp at h

theorem pairwise_beginnings : ∀ cs : List Char,
    (beginnings cs).Pairwise fun q p => '.' :: p.toList.reverse <:+ q.toList.reverse
  | [] => by simp [beginnings]
  | d :: cs => by
    unfold beginnings
    split
    · next c rest heq =>
      obtain ⟨rfl, rfl⟩ := List.cons.inj heq
      refine List.pairwise_cons.mpr ⟨fun p hp => ?_, pairwise_beginnings rest⟩
      rw [String.toList_ofList, List.reverse_reverse]
      exact (suffix_of_mem_beginnings hp).trans (List.suffix_cons _ _)
    · next heq =>
      obtain ⟨rfl, rfl⟩ := List.cons.inj heq
      exact pairwise_beginnings _
    · exact .nil

theorem dotted_of_suffix {p : String} {cs : List Char}
    (h : '.' :: p.toList.reverse <:+ cs.reverse) :
    p.toList ++ ['.'] <+: cs := by
  rw [← List.reverse_suffix]
  simpa using h

theorem dotted_of_mem_namesAbove {p name : String} (h : p ∈ namesAbove name) :
    p.toList ++ ['.'] <+: name.toList := dotted_of_suffix (suffix_of_mem_beginnings h)

/-- Of two names above, the nearer one begins with the other up to a dot. -/
theorem pairwise_namesAbove (name : String) :
    (namesAbove name).Pairwise fun q p => p.toList ++ ['.'] <+: q.toList :=
  (pairwise_beginnings _).imp dotted_of_suffix

theorem not_prefix_of_dotted {p q : List Char} (h : p ++ ['.'] <+: q) : ¬ q <+: p := by
  intro hqp
  have hlength := (h.trans hqp).length_le
  rw [List.length_append, List.length_singleton] at hlength
  omega

theorem not_mem_namesAbove_self (name : String) : name ∉ namesAbove name :=
  fun h => not_prefix_of_dotted (dotted_of_mem_namesAbove h) (List.prefix_refl _)

end Names

section Nearest

/-- A new name, or the one that was the nearest if it begins with the new one. -/
def nearer (name : String) : Option String → String
  | some p => if name.toList <+: p.toList then p else name
  | none => name

theorem find?_or_eq {P : String → Bool} {name : String} {names : List String}
    (hsorted : names.Pairwise fun q p => p.toList ++ ['.'] <+: q.toList) (hmem : name ∈ names)
    (hnew : P name = false) :
    names.find? (fun n => decide (n = name) || P n) = some (nearer name (names.find? P)) := by
  induction names with
  | nil => cases hmem
  | cons q rest ih =>
    rw [List.pairwise_cons] at hsorted
    have hne : name ≠ q → name ∈ rest := fun hne => (List.mem_cons.mp hmem).resolve_left hne
    by_cases hq : P q = true
    · have hlater : name ∈ rest := hne fun h => by rw [h, hq] at hnew; cases hnew
      have hprefix : name.toList <+: q.toList :=
        (List.prefix_append _ _).trans (hsorted.1 name hlater)
      simp [hq, nearer, hprefix]
    · rw [Bool.not_eq_true] at hq
      by_cases hqn : q = name
      · subst hqn
        cases hfind : rest.find? P with
        | none => simp [hq, hfind, nearer]
        | some p =>
          have hshort := not_prefix_of_dotted (hsorted.1 p (List.mem_of_find?_eq_some hfind))
          simp [hq, hfind, nearer, hshort]
      · simp only [List.find?_cons, hq, hqn, decide_false, Bool.or_self]
        exact ih hsorted.2 (hne (Ne.symm hqn))

variable {r : Registry} {name c : String}

theorem lookup_map_adopt (name c : String) (loggers : List (String × Logger)) :
    (loggers.map (adopt name)).lookup c =
      (loggers.lookup c).map fun x => (adopt name (c, x)).2 := by
  induction loggers with
  | nil => rfl
  | cons l rest ih =>
    obtain ⟨n, x⟩ := l
    have hname : adopt name (n, x) = (n, (adopt name (n, x)).2) := by
      rw [adopt]
      split <;> rfl
    rw [List.map_cons, hname, lookup_cons, lookup_cons, ih]
    by_cases h : c = n
    · simp [h]
    · simp [h]

theorem isRoot_eq_false_of_logger? (h : r.logger? name = none) : isRoot name = false := by
  rw [logger?] at h
  split at h
  · cases h
  · next hroot => exact Bool.not_eq_true _ |>.mp hroot

theorem ne_of_isRoot (hc : isRoot c = true) (hname : isRoot name = false) : c ≠ name := by
  rintro rfl
  rw [hname] at hc
  cases hc

theorem lookup_of_logger? (h : r.logger? name = none) : r.loggers.lookup name = none := by
  rwa [logger?, isRoot_eq_false_of_logger? h] at h

theorem lookup_provide (h : r.logger? name = none) (c : String) :
    (r.provide name).loggers.lookup c =
      if c = name then some (.fresh r.nextId (r.nearest? name))
      else (r.loggers.lookup c).map fun x => (adopt name (c, x)).2 := by
  have hprovide : (r.provide name).loggers =
      (name, .fresh r.nextId (r.nearest? name)) :: r.loggers.map (adopt name) := by
    rw [provide, h]
    rfl
  rw [hprovide, lookup_cons, lookup_map_adopt]

theorem provide_of_logger? {x : Logger} (h : r.logger? name = some x) : r.provide name = r := by
  rw [provide, h]
  rfl

theorem nearest?_provide (h : r.logger? name = none) (c : String) :
    (r.provide name).nearest? c =
      if name ∈ namesAbove c then some (nearer name (r.nearest? c)) else r.nearest? c := by
  have hexists : (fun n => ((r.provide name).loggers.lookup n).isSome) =
      fun n => decide (n = name) || (r.loggers.lookup n).isSome := by
    funext n
    rw [lookup_provide h]
    by_cases hn : n = name <;> simp [hn]
  rw [nearest?, nearest?, hexists]
  split
  · next hmem =>
    have hnew : (r.loggers.lookup name).isSome = false := by rw [lookup_of_logger? h]; rfl
    exact find?_or_eq (pairwise_namesAbove c) hmem hnew
  · next hmem =>
    refine List.find?_congr fun n hn => ?_
    have hne : n ≠ name := fun h => hmem (h ▸ hn)
    simp [hne]

end Nearest

section Linked

/-- A logger stands right below the nearest one above it. Only where the name of that one begins the
name of the root logger, the root logger can be in its place. -/
def Below (parent near : Option String) : Prop :=
  parent = near ∨ parent = none ∧ ∀ p, near = some p → p.toList <+: rootName.toList

theorem Below.adopt {parent near : Option String} (h : Below parent near) (name : String) :
    Below (if name.toList <+: (parent.getD rootName).toList then parent else some name)
      (some (nearer name near)) := by
  rcases h with rfl | ⟨rfl, hroot⟩
  · cases parent with
    | some p =>
      refine .inl ?_
      rw [nearer, Option.getD_some]
      split <;> rfl
    | none =>
      by_cases hbegins : name.toList <+: rootName.toList
      · exact .inr ⟨if_pos hbegins, fun q hq => Option.some.inj hq ▸ hbegins⟩
      · exact .inl (if_neg hbegins)
  · by_cases hbegins : name.toList <+: rootName.toList
    · refine .inr ⟨if_pos hbegins, fun q hq => ?_⟩
      obtain rfl := Option.some.inj hq
      cases near with
      | none => exact hbegins
      | some p =>
        rw [nearer]
        split
        · exact hroot p rfl
        · exact hbegins
    · refine .inl ((if_neg hbegins).trans ?_)
      cases near with
      | none => rfl
      | some p => rw [nearer, if_neg fun hlonger => hbegins (hlonger.trans (hroot p rfl))]

theorem parent_adopt {name c : String} (h : name ∈ namesAbove c) (x : Logger) :
    (adopt name (c, x)).2.parent =
      if name.toList <+: (x.parent.getD rootName).toList then x.parent else some name := by
  by_cases hbegins : name.toList <+: (x.parent.getD rootName).toList <;> simp [adopt, h, hbegins]

theorem adopt_of_not_mem {name c : String} (h : name ∉ namesAbove c) (x : Logger) :
    adopt name (c, x) = (c, x) := if_neg fun hadopt => h hadopt.1

/-- No logger but the root one has its name, and every logger has its place. -/
structure Linked (r : Registry) : Prop where
  lookup_root : ∀ name, isRoot name = true → r.loggers.lookup name = none
  below : ∀ name x, r.loggers.lookup name = some x → Below x.parent (r.nearest? name)

variable {r : Registry} {name c : String}

theorem linked_initial : Linked initial := ⟨fun _ _ => rfl, fun _ _ h => by cases h⟩

/-- A new logger takes its place between those above and below. -/
theorem Linked.provide (h : Linked r) (name : String) : Linked (r.provide name) := by
  cases hlogger : r.logger? name with
  | some x => rwa [provide_of_logger? hlogger]
  | none =>
    refine ⟨fun c hc => ?_, fun c x hx => ?_⟩
    · have hne : c ≠ name := ne_of_isRoot hc (isRoot_eq_false_of_logger? hlogger)
      rw [lookup_provide hlogger, if_neg hne, h.lookup_root c hc]
      rfl
    · rw [lookup_provide hlogger] at hx
      rw [nearest?_provide hlogger]
      split at hx
      · next hc =>
        obtain rfl := Option.some.inj hx
        subst hc
        rw [if_neg (not_mem_namesAbove_self c)]
        exact .inl rfl
      · obtain ⟨y, hy, rfl⟩ := Option.map_eq_some_iff.mp hx
        by_cases hmem : name ∈ namesAbove c
        · rw [if_pos hmem, parent_adopt hmem]
          exact (h.below c y hy).adopt name
        · rw [if_neg hmem, adopt_of_not_mem hmem]
          exact h.below c y hy

theorem isRoot_of_lookup (h : Linked r) {x : Logger} (hx : r.loggers.lookup c = some x) :
    isRoot c = false := by
  by_contra hroot
  rw [h.lookup_root c (Bool.not_eq_false _ |>.mp hroot)] at hx
  cases hx

theorem logger_of_lookup (h : Linked r) {x : Logger} (hx : r.loggers.lookup c = some x) :
    r.logger c = x := by
  simp [logger, logger?, isRoot_of_lookup h hx, hx]

theorem lookup_configure (hroot : isRoot name = false) (level : Int) (c : String) :
    (r.configure name level).loggers.lookup c =
      if c = name then some { r.logger name with
        level := level, handlers := (r.logger name).handlers ++ [name], propagate := false }
      else r.loggers.lookup c := by
  simp only [configure, set, hroot]
  exact lookup_putLogger name c _ r.loggers

theorem Linked.configure (h : Linked r) {x : Logger} (hx : r.loggers.lookup name = some x)
    (level : Int) : Linked (r.configure name level) := by
  have hroot := isRoot_of_lookup h hx
  have hlogger := logger_of_lookup h hx
  have hnearest (c : String) : (r.configure name level).nearest? c = r.nearest? c := by
    refine List.find?_congr fun n _ => ?_
    rw [lookup_configure hroot]
    by_cases hn : n = name <;> simp [hn, hx]
  refine ⟨fun c hc => ?_, fun c y hy => ?_⟩
  · rw [lookup_configure hroot, if_neg (ne_of_isRoot hc hroot)]
    exact h.lookup_root c hc
  · rw [lookup_configure hroot] at hy
    rw [hnearest]
    split at hy
    · next hc =>
      obtain rfl := Option.some.inj hy
      rw [hc, hlogger]
      exact h.below name x hx
    · exact h.below c y hy

end Linked

section Path

variable {r : Registry} {c : String}

theorem climb_eq {p : String} : ∀ {cs : List Char}, '.' :: p.toList.reverse <:+ cs →
    r.climb (some p) cs = p :: r.climb (r.logger p).parent p.toList.reverse
  | [], h => by simp at h
  | d :: rest, h => by
    rw [climb]
    split
    · next hp =>
      subst hp
      simp
    · next hp =>
      refine climb_eq ((List.suffix_cons_iff.mp h).resolve_left fun heq => hp ?_)
      rw [← (List.cons.inj heq).2, List.reverse_reverse, String.ofList_toList]

theorem exists_of_nearest? {p : String} (h : r.nearest? c = some p) :
    ∃ x, r.loggers.lookup p = some x := by
  rw [nearest?, List.find?_eq_some_iff_append] at h
  exact Option.isSome_iff_exists.mp h.1

/-- From a logger the path goes on with the one right above it. -/
theorem path_of_lookup (h : Linked r) {x : Logger} (hx : r.loggers.lookup c = some x) :
    r.path c = c :: x.parent.elim [] r.path := by
  have hpath : r.path c = c :: r.climb x.parent c.toList.reverse := by
    rw [path, isRoot_of_lookup h hx, logger_of_lookup h hx]
    rfl
  rw [hpath]
  cases hparent : x.parent with
  | none => simp [climb]
  | some p =>
    have hnear : r.nearest? c = some p := by
      rcases h.below c x hx with heq | ⟨hnone, -⟩
      · exact heq ▸ hparent
      · rw [hnone] at hparent
        cases hparent
    obtain ⟨y, hy⟩ := exists_of_nearest? hnear
    rw [climb_eq (suffix_of_mem_beginnings (List.mem_of_find?_eq_some hnear))]
    simp [path, isRoot_of_lookup h hy]

end Path

end AdfMarkdown.Log.Registry
