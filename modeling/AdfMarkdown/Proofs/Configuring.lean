import AdfMarkdown.Proofs.LoggerTree

/-! # The first valid request configures a logger

What a registry holds after any calls is told by the first valid level that was asked for under each
name: a name with one is configured with it for good, and no other call leaves a trace in the
settings of a logger. A record is therefore written by the handler of the nearest configured logger
on its way up, and by no other one.
-/

namespace AdfMarkdown.Log

/-- A number, or the name of a level in any case. -/
def IsLevel (v : Json) : Prop :=
  (∃ n, v.asNumber = .int n) ∨
    ∃ s, v = .text s ∧ ∃ level, (String.ofList (Text.upper s.toList), level) ∈ namedLevels

theorem isLevel_text_iff {s : String} : IsLevel (.text s) ↔
    ∃ n, namedLevels.lookup (String.ofList (Text.upper s.toList)) = some n := by
  rw [← Option.isSome_iff_exists, List.lookup_isSome_iff]
  simp [IsLevel, Json.asNumber]

theorem isLevel_iff {v : Json} : IsLevel v ↔ ∃ n, levelOfAnyCase v = .ok n := by
  cases v with
  | text s =>
    rw [isLevel_text_iff, levelOfAnyCase]
    cases namedLevels.lookup (String.ofList (Text.upper s.toList)) <;> simp
  | _ => simp [IsLevel, levelOfAnyCase, levelOf, Json.asNumber]

/-- What configuring a logger changes. -/
def Logger.settings (x : Logger) : Int × List String × Bool := (x.level, x.handlers, x.propagate)

namespace Registry

inductive Call where
  | request (name : String) (level : Json)
  | record (name : String)

def act (r : Registry) : Call → Registry
  | .request name level => (r.request name level).1
  | .record name => r.provide name

def after (r : Registry) (calls : List Call) : Registry := calls.foldl act r

def Call.levelFor? (name : String) : Call → Option Int
  | request n level => if n = name then (levelOfAnyCase level).toOption else none
  | record _ => none

/-- The first valid level that the calls ask for under the name. -/
def firstLevel? (name : String) (calls : List Call) : Option Int :=
  calls.findSome? (Call.levelFor? name)

section Step

variable {r : Registry} {name c : String}

theorem settings_adopt (name c : String) (x : Logger) :
    (adopt name (c, x)).2.settings = x.settings := by
  rw [adopt]
  split <;> rfl

theorem logger_of_isRoot (h : isRoot c = true) : r.logger c = r.root := by
  simp [logger, logger?, h]

theorem logger_of_not_isRoot (h : isRoot c = false) :
    r.logger c = (r.loggers.lookup c).getD (.fresh r.nextId none) := by
  simp [logger, logger?, h]

@[simp] theorem configured_provide (r : Registry) (name : String) :
    (r.provide name).configured = r.configured := by
  rw [provide]
  split <;> rfl

@[simp] theorem root_provide (r : Registry) (name : String) : (r.provide name).root = r.root := by
  rw [provide]
  split <;> rfl

theorem settings_provide (r : Registry) (name c : String) :
    ((r.provide name).logger c).settings = (r.logger c).settings := by
  cases hlogger : r.logger? name with
  | some x => rw [provide_of_logger? hlogger]
  | none =>
    cases hroot : isRoot c with
    | true => rw [logger_of_isRoot hroot, logger_of_isRoot hroot, root_provide]
    | false =>
      rw [logger_of_not_isRoot hroot, logger_of_not_isRoot hroot, lookup_provide hlogger]
      split
      · next hc =>
        rw [hc, lookup_of_logger? hlogger]
        rfl
      · cases r.loggers.lookup c with
        | none => rfl
        | some x => exact settings_adopt name c x

theorem exists_lookup_provide (hroot : isRoot name = false) :
    ∃ x, (r.provide name).loggers.lookup name = some x := by
  cases hlogger : r.logger? name with
  | some x =>
    rw [provide_of_logger? hlogger]
    exact ⟨x, by rwa [logger?, hroot] at hlogger⟩
  | none => exact ⟨_, by rw [lookup_provide hlogger, if_pos rfl]⟩

theorem root_configure (hroot : isRoot name = false) (level : Int) :
    (r.configure name level).root = r.root := by
  simp [configure, set, hroot]

theorem logger_configure (hroot : isRoot name = false) (level : Int) (c : String) :
    ((r.configure name level).logger c).settings =
      if c = name then (level, (r.logger name).handlers ++ [name], false)
      else (r.logger c).settings := by
  cases hc : isRoot c with
  | true =>
    rw [if_neg (ne_of_isRoot hc hroot), logger_of_isRoot hc, logger_of_isRoot hc,
      root_configure hroot]
  | false =>
    rw [logger_of_not_isRoot hc, lookup_configure hroot]
    by_cases hne : c = name
    · rw [if_pos hne, if_pos hne]
      rfl
    · rw [if_neg hne, if_neg hne, logger_of_not_isRoot hc]
      cases r.loggers.lookup c <;> rfl

theorem request_cases (r : Registry) (name : String) (v : Json) :
    (name ∈ r.configured ∧
      r.request name v = (r.provide name, .ok ((r.provide name).logger name))) ∨
    (name ∉ r.configured ∧ ∃ e, levelOfAnyCase v = .error e ∧
      r.request name v = (r.provide name, .error e)) ∨
    (name ∉ r.configured ∧ ∃ n, levelOfAnyCase v = .ok n ∧
      r.request name v = ((r.provide name).configure name n,
        .ok (((r.provide name).configure name n).logger name))) := by
  by_cases hmem : name ∈ r.configured
  · exact .inl ⟨hmem, by simp [request, hmem]⟩
  · cases hlevel : levelOfAnyCase v with
    | error e => exact .inr (.inl ⟨hmem, e, rfl, by simp [request, hmem, hlevel]⟩)
    | ok n => exact .inr (.inr ⟨hmem, n, rfl, by simp [request, hmem, hlevel]⟩)

end Step

section Identity

def id? (r : Registry) (name : String) : Option Nat := (r.logger? name).map Logger.id

/-- The numbers tell the loggers apart; the root one alone goes by two names. -/
structure Numbered (r : Registry) : Prop where
  bounds : ∀ name n, r.id? name = some n → n ≤ r.loggers.length ∧ (n = 0 ↔ isRoot name = true)
  unique : ∀ name other n, r.id? name = some n → r.id? other = some n →
    name = other ∨ isRoot name = true ∧ isRoot other = true

variable {r : Registry} {name c : String}

theorem id?_of_isRoot (h : isRoot c = true) : r.id? c = some r.root.id := by
  rw [id?, logger?, if_pos h]
  rfl

theorem id?_of_not_isRoot (h : isRoot c = false) :
    r.id? c = (r.loggers.lookup c).map Logger.id := by
  rw [id?, logger?, h]
  rfl

theorem id?_provide (h : r.logger? name = none) (c : String) :
    (r.provide name).id? c = if c = name then some r.nextId else r.id? c := by
  have hname := isRoot_eq_false_of_logger? h
  cases hc : isRoot c with
  | true => rw [if_neg (ne_of_isRoot hc hname), id?_of_isRoot hc, id?_of_isRoot hc, root_provide]
  | false =>
    have hadopt (x : Logger) : (adopt name (c, x)).2.id = x.id := by
      rw [adopt]
      split <;> rfl
    rw [id?_of_not_isRoot hc, id?_of_not_isRoot hc, lookup_provide h]
    split
    · rfl
    · rw [Option.map_map]
      exact congrArg (fun f => (r.loggers.lookup c).map f) (funext hadopt)

theorem id?_configure {x : Logger} (h : r.logger? name = some x) (level : Int) (c : String) :
    (r.configure name level).id? c = r.id? c := by
  have hlogger : r.logger name = x := by rw [logger, h, Option.getD_some]
  cases hname : isRoot name with
  | true =>
    have hroot : (r.configure name level).root.id = r.root.id := by
      rw [← logger_of_isRoot (r := r) hname]
      simp [configure, set, hname]
    have hloggers : (r.configure name level).loggers = r.loggers := by
      simp [configure, set, hname]
    cases hc : isRoot c with
    | true => rw [id?_of_isRoot hc, id?_of_isRoot hc, hroot]
    | false => rw [id?_of_not_isRoot hc, id?_of_not_isRoot hc, hloggers]
  | false =>
    cases hc : isRoot c with
    | true => rw [id?_of_isRoot hc, id?_of_isRoot hc, root_configure hname]
    | false =>
      rw [id?_of_not_isRoot hc, id?_of_not_isRoot hc, lookup_configure hname, hlogger]
      split
      · next heq =>
        rw [logger?, hname] at h
        rw [heq]
        exact (congrArg (Option.map Logger.id) h).symm
      · rfl

theorem length_putLogger {x y : Logger} : ∀ {loggers : List (String × Logger)},
    loggers.lookup name = some y → (putLogger name x loggers).length = loggers.length
  | [], h => by cases h
  | (n, z) :: rest, h => by
    rw [putLogger]
    split
    · rfl
    · next hn =>
      rw [lookup_cons, if_neg (Ne.symm hn)] at h
      rw [List.length_cons, List.length_cons, length_putLogger h]

theorem length_configure {x : Logger} (h : r.logger? name = some x) (level : Int) :
    (r.configure name level).loggers.length = r.loggers.length := by
  cases hname : isRoot name with
  | true => simp [configure, set, hname]
  | false =>
    rw [logger?, hname] at h
    simp [configure, set, hname, length_putLogger h]

theorem isSome_logger?_provide (r : Registry) (name : String) :
    ((r.provide name).logger? name).isSome = true := by
  cases hname : isRoot name with
  | true => rw [logger?, if_pos hname, Option.isSome_some]
  | false =>
    obtain ⟨x, hx⟩ := exists_lookup_provide (r := r) hname
    rw [logger?, hname]
    simp [hx]

theorem numbered_initial : Numbered initial := by
  have hid {name : String} {n : Nat} (h : initial.id? name = some n) :
      n = 0 ∧ isRoot name = true := by
    cases hname : isRoot name with
    | true =>
      rw [id?_of_isRoot hname] at h
      exact ⟨(Option.some.inj h).symm, rfl⟩
    | false =>
      rw [id?_of_not_isRoot hname] at h
      cases h
  constructor
  · intro name n h
    obtain ⟨rfl, hname⟩ := hid h
    exact ⟨le_rfl, iff_of_true rfl hname⟩
  · exact fun name other n hn ho => .inr ⟨(hid hn).2, (hid ho).2⟩

theorem Numbered.provide (h : Numbered r) (name : String) : Numbered (r.provide name) := by
  cases hlogger : r.logger? name with
  | some x => rwa [provide_of_logger? hlogger]
  | none =>
    have hname := isRoot_eq_false_of_logger? hlogger
    have hlength : (r.provide name).loggers.length = r.loggers.length + 1 := by
      rw [Registry.provide, hlogger]
      exact congrArg (· + 1) (List.length_map _)
    have hnext {c : String} {n : Nat} (hc : r.id? c = some n) : n ≠ r.nextId := by
      have hbound := (h.bounds c n hc).1
      rw [nextId]
      omega
    constructor
    · intro c n hc
      rw [id?_provide hlogger] at hc
      rw [hlength]
      split at hc
      · next heq =>
        obtain rfl := Option.some.inj hc
        rw [heq, hname, nextId]
        simp
      · obtain ⟨hbound, hzero⟩ := h.bounds c n hc
        exact ⟨Nat.le_succ_of_le hbound, hzero⟩
    · intro c other n hc ho
      rw [id?_provide hlogger] at hc ho
      split at hc <;> split at ho
      · next hcname honame => exact .inl (hcname.trans honame.symm)
      · exact absurd (Option.some.inj hc).symm (hnext ho)
      · exact absurd (Option.some.inj ho).symm (hnext hc)
      · exact h.unique c other n hc ho

theorem Numbered.configure (h : Numbered r) {x : Logger} (hx : r.logger? name = some x)
    (level : Int) : Numbered (r.configure name level) := by
  constructor
  · intro c n hc
    rw [id?_configure hx] at hc
    rw [length_configure hx]
    exact h.bounds c n hc
  · intro c other n hc ho
    rw [id?_configure hx] at hc ho
    exact h.unique c other n hc ho

theorem id?_provide_of_isSome (h : (r.id? c).isSome = true) (name : String) :
    (r.provide name).id? c = r.id? c := by
  cases hlogger : r.logger? name with
  | some x => rw [provide_of_logger? hlogger]
  | none =>
    rw [id?_provide hlogger, if_neg]
    rintro rfl
    rw [id?, hlogger] at h
    cases h

theorem id?_act (h : (r.id? c).isSome = true) (call : Call) : (r.act call).id? c = r.id? c := by
  cases call with
  | record name => exact id?_provide_of_isSome h name
  | request name v =>
    rcases request_cases r name v with ⟨-, heq⟩ | ⟨-, e, -, heq⟩ | ⟨-, n, -, heq⟩
    · rw [act, heq, id?_provide_of_isSome h]
    · rw [act, heq, id?_provide_of_isSome h]
    · obtain ⟨x, hx⟩ := Option.isSome_iff_exists.mp (isSome_logger?_provide r name)
      rw [act, heq, id?_configure hx, id?_provide_of_isSome h]

theorem id?_after (calls : List Call) : ∀ {r : Registry}, (r.id? c).isSome = true →
    (r.after calls).id? c = r.id? c := by
  induction calls with
  | nil => exact fun _ => rfl
  | cons call rest ih =>
    intro r h
    have hcall := id?_act h call
    change ((r.act call).after rest).id? c = _
    rw [ih (by rwa [hcall]), hcall]

theorem exists_id_after {x : Logger} (h : r.logger? name = some x) (later : List Call) :
    ∃ y, (r.after later).logger? name = some y ∧ y.id = x.id := by
  have hid : r.id? name = some x.id := by rw [id?, h, Option.map_some]
  have hlater := id?_after later (r := r) (c := name) (by rw [hid, Option.isSome_some])
  rw [hid, id?, Option.map_eq_some_iff] at hlater
  exact hlater

theorem Numbered.eq_or_isRoot (h : Numbered r) {other : String} {x y : Logger}
    (hx : r.logger? name = some x) (hy : r.logger? other = some y) (hid : y.id = x.id) :
    other = name ∨ isRoot other = true ∧ isRoot name = true := by
  apply h.unique other name x.id
  · rw [id?, hy, Option.map_some, hid]
  · rw [id?, hx, Option.map_some]

end Identity

section Run

/-- The settings of the logger of a name that was configured at a level, or was not. -/
def settingsAt (name : String) : Option Int → Int × List String × Bool
  | some level => (level, [name], false)
  | none => (Logger.fresh 0 none).settings

/-- The registry is what the first valid levels in the calls make of it. -/
structure Remembers (calls : List Call) (r : Registry) : Prop where
  linked : Linked r
  numbered : Numbered r
  not_mem_configured : ∀ name, isRoot name = true → name ∉ r.configured
  mem_configured : ∀ name, name ∈ r.configured ↔ (firstLevel? name calls).isSome = true
  settings : ∀ name, isRoot name = false →
    (r.logger name).settings = settingsAt name (firstLevel? name calls)
  root : r.root.settings = initial.root.settings

variable {r : Registry} {calls : List Call} {name : String}

theorem firstLevel?_append (name : String) (calls : List Call) (c : Call) :
    firstLevel? name (calls ++ [c]) = (firstLevel? name calls).or (c.levelFor? name) := by
  rw [firstLevel?, List.findSome?_append, List.findSome?_singleton]
  rfl

theorem remembers_initial : Remembers [] initial where
  linked := linked_initial
  numbered := numbered_initial
  not_mem_configured _ _ h := by cases h
  mem_configured _ := by simp [initial, firstLevel?]
  settings name hroot := by
    rw [logger_of_not_isRoot hroot]
    rfl
  root := rfl

theorem Remembers.firstLevel?_eq_none (h : Remembers calls r) (hnew : name ∉ r.configured) :
    firstLevel? name calls = none := by
  rwa [h.mem_configured, Option.not_isSome_iff_eq_none] at hnew

/-- A call that asks for no valid level, or for one under a name that has its own, changes nothing
but where new loggers stand. -/
theorem Remembers.provide (h : Remembers calls r) {c : Call}
    (hc : ∀ n, firstLevel? n (calls ++ [c]) = firstLevel? n calls) (name : String) :
    Remembers (calls ++ [c]) (r.provide name) where
  linked := h.linked.provide name
  numbered := h.numbered.provide name
  not_mem_configured n hn := by
    rw [configured_provide]
    exact h.not_mem_configured n hn
  mem_configured n := by
    rw [configured_provide, hc]
    exact h.mem_configured n
  settings n hn := by
    rw [settings_provide, hc]
    exact h.settings n hn
  root := by
    rw [root_provide]
    exact h.root

theorem Remembers.configure (h : Remembers calls r) (hroot : isRoot name = false)
    (hnew : name ∉ r.configured) {v : Json} {level : Int} (hlevel : levelOfAnyCase v = .ok level) :
    Remembers (calls ++ [.request name v]) ((r.provide name).configure name level) := by
  have hnone := h.firstLevel?_eq_none hnew
  have hfirst (n : String) : firstLevel? n (calls ++ [.request name v]) =
      if n = name then some level else firstLevel? n calls := by
    rw [firstLevel?_append, Call.levelFor?, hlevel]
    by_cases hn : n = name
    · subst hn
      rw [hnone, if_pos rfl, if_pos rfl]
      rfl
    · rw [if_neg (Ne.symm hn), if_neg hn, Option.or_none]
  obtain ⟨x, hx⟩ := exists_lookup_provide (r := r) hroot
  have hlogger : (r.provide name).logger? name = some x := by
    rw [logger?, hroot]
    exact hx
  refine ⟨(h.linked.provide name).configure hx level,
    (h.numbered.provide name).configure hlogger level, fun n hn hmem => ?_, fun n => ?_,
    fun n hn => ?_, ?_⟩
  · rcases List.mem_cons.mp hmem with rfl | hmem
    · rw [hroot] at hn
      cases hn
    · exact h.not_mem_configured n hn (by rwa [configured_provide] at hmem)
  · have hmem : n ∈ ((r.provide name).configure name level).configured ↔
        n = name ∨ n ∈ r.configured := by
      rw [← configured_provide r name]
      exact List.mem_cons
    rw [hmem, hfirst, h.mem_configured]
    by_cases hn : n = name <;> simp [hn]
  · rw [logger_configure hroot, hfirst]
    by_cases hname : n = name
    · subst hname
      have hhandlers : ((r.provide n).logger n).handlers = [] := by
        have hsettings := settings_provide r n n
        rw [h.settings n hn, hnone] at hsettings
        exact congrArg (·.2.1) hsettings
      rw [if_pos rfl, if_pos rfl, hhandlers]
      rfl
    · rw [if_neg hname, if_neg hname, settings_provide]
      exact h.settings n hn
  · rw [root_configure hroot, root_provide]
    exact h.root

theorem Remembers.act (h : Remembers calls r) {c : Call}
    (hc : ∀ name v, c = .request name v → isRoot name = false) :
    Remembers (calls ++ [c]) (r.act c) := by
  cases c with
  | record name =>
    exact h.provide (fun n => by rw [firstLevel?_append]; exact Option.or_none) name
  | request name v =>
    rcases request_cases r name v with ⟨hmem, heq⟩ | ⟨-, e, herror, heq⟩ | ⟨hnew, n, hok, heq⟩
    · rw [Registry.act, heq]
      refine h.provide (fun n => ?_) name
      rw [firstLevel?_append, Call.levelFor?]
      split
      · next hn =>
        obtain ⟨level, hlevel⟩ := Option.isSome_iff_exists.mp ((h.mem_configured name).mp hmem)
        rw [← hn, hlevel, Option.some_or]
      · exact Option.or_none
    · rw [Registry.act, heq]
      refine h.provide (fun n => ?_) name
      rw [firstLevel?_append, Call.levelFor?, herror]
      split <;> exact Option.or_none
    · rw [Registry.act, heq]
      exact h.configure (hc name v rfl) hnew hok

/-- After any calls the registry is what the first valid levels in them make of it. -/
theorem remembers_after (calls : List Call) :
    (∀ name v, .request name v ∈ calls → isRoot name = false) →
      Remembers calls (initial.after calls) := by
  induction calls using List.reverseRecOn with
  | nil => exact fun _ => remembers_initial
  | append_singleton calls c ih =>
    intro h
    have hbefore := ih fun name v hmem => h name v (List.mem_append_left _ hmem)
    rw [after, List.foldl_append]
    exact hbefore.act fun name v heq => h name v (by simp [heq])

theorem Remembers.settings_of_mem_configured (h : Remembers calls r) (hmem : name ∈ r.configured) :
    ∃ level, firstLevel? name calls = some level ∧
      (r.logger name).settings = (level, [name], false) := by
  obtain ⟨level, hlevel⟩ := Option.isSome_iff_exists.mp ((h.mem_configured name).mp hmem)
  have hroot : isRoot name = false := by
    by_contra hroot
    exact h.not_mem_configured name (Bool.not_eq_false _ |>.mp hroot) hmem
  exact ⟨level, hlevel, by rw [h.settings name hroot, hlevel]; rfl⟩

theorem Remembers.request_eq (h : Remembers calls r) (hmem : name ∈ r.configured) (v : Json) :
    r.request name v = (r, .ok (r.logger name)) := by
  have hprovide : r.provide name = r := by
    cases hlogger : r.logger? name with
    | some x => exact provide_of_logger? hlogger
    | none =>
      obtain ⟨level, -, hsettings⟩ := h.settings_of_mem_configured hmem
      rw [logger, hlogger] at hsettings
      cases hsettings
  rcases request_cases r name v with ⟨-, heq⟩ | ⟨hnew, -⟩ | ⟨hnew, -⟩
  · rw [heq, hprovide]
  · exact absurd hmem hnew
  · exact absurd hmem hnew

end Run

section Writing

variable {r : Registry} {calls : List Call}

theorem Remembers.handlers_eq (h : Remembers calls r) (name : String) :
    ((r.logger name).handlers, (r.logger name).propagate) =
      if name ∈ r.configured then ([name], false) else ([], true) := by
  cases hroot : isRoot name with
  | true =>
    rw [logger_of_isRoot hroot, if_neg (h.not_mem_configured name hroot)]
    exact congrArg Prod.snd h.root
  | false =>
    change (r.logger name).settings.2 = _
    rw [h.settings name hroot]
    by_cases hmem : name ∈ r.configured
    · obtain ⟨level, hlevel⟩ := Option.isSome_iff_exists.mp ((h.mem_configured name).mp hmem)
      rw [if_pos hmem, hlevel]
      rfl
    · rw [if_neg hmem, h.firstLevel?_eq_none hmem]
      rfl

/-- Upwards, only the handler of the first configured logger is reached. -/
theorem Remembers.reached_eq (h : Remembers calls r) (names : List String) :
    reached (names.map r.logger ++ [r.root]) = (names.find? (· ∈ r.configured)).toList := by
  induction names with
  | nil =>
    have hroot : (r.root.handlers, r.root.propagate) = ([], true) := congrArg Prod.snd h.root
    simp [reached, (Prod.mk.inj hroot).1]
  | cons name rest ih =>
    have hname := h.handlers_eq name
    rw [List.map_cons, List.cons_append, reached]
    by_cases hmem : name ∈ r.configured
    · rw [if_pos hmem] at hname
      obtain ⟨hhandlers, hpropagate⟩ := Prod.mk.inj hname
      simp [hhandlers, hpropagate, hmem]
    · rw [if_neg hmem] at hname
      obtain ⟨hhandlers, hpropagate⟩ := Prod.mk.inj hname
      simp [hhandlers, hpropagate, hmem, ih]

theorem Remembers.written_eq (h : Remembers calls r) {name : String} {level : Int}
    (hpositive : 0 < level) (hreaches : r.effectiveLevel name ≤ level) :
    r.written name level = (((r.provide name).path name).find? (· ∈ r.configured)).toList := by
  have hprovided : Remembers (calls ++ [.record name]) (r.provide name) := h.act (by simp)
  rw [written, isEnabled, decide_eq_true hpositive, decide_eq_true hreaches, lineage,
    hprovided.reached_eq]
  simp

theorem written_of_lt {name : String} {level : Int} (hlow : level < r.effectiveLevel name) :
    r.written name level = [] := by
  have hnot : ¬ r.effectiveLevel name ≤ level := Int.not_le.mpr hlow
  rw [written, isEnabled, decide_eq_false hnot, Bool.and_false]
  rfl

end Writing

theorem isSome_firstLevel?_iff {calls : List Call} {name : String} :
    (firstLevel? name calls).isSome = true ↔ ∃ v, .request name v ∈ calls ∧ IsLevel v := by
  rw [firstLevel?, List.findSome?_isSome_iff]
  constructor
  · rintro ⟨c, hc, hlevel⟩
    cases c with
    | record n => cases hlevel
    | request n v =>
      rw [Call.levelFor?] at hlevel
      split at hlevel
      · next hn =>
        subst hn
        cases hok : levelOfAnyCase v with
        | ok level => exact ⟨v, hc, isLevel_iff.mpr ⟨level, hok⟩⟩
        | error e =>
          rw [hok] at hlevel
          cases hlevel
      · cases hlevel
  · rintro ⟨v, hc, hlevel⟩
    obtain ⟨level, hok⟩ := isLevel_iff.mp hlevel
    exact ⟨_, hc, by simp [Call.levelFor?, hok, Except.toOption]⟩

theorem levelOfAnyCase_text {s : String} (h : ¬ IsLevel (.text s)) :
    levelOfAnyCase (.text s) =
      .error (.unknown ("Level " ++ String.ofList (Text.upper s.toList))) := by
  rw [isLevel_text_iff] at h
  rw [levelOfAnyCase]
  cases hlevel : namedLevels.lookup (String.ofList (Text.upper s.toList)) with
  | none => rfl
  | some n => exact absurd ⟨n, hlevel⟩ h

section Requests

variable {r : Registry} {name : String}

theorem request_of_not_isLevel (hnew : name ∉ r.configured) {s : String}
    (hs : ¬ IsLevel (.text s)) :
    r.request name (.text s) = (r.provide name,
      .error (.unknown ("Level " ++ String.ofList (Text.upper s.toList)))) := by
  simp [request, hnew, levelOfAnyCase_text hs]

theorem request_of_level (hnew : name ∉ r.configured) {v : Json} {level : Int}
    (hlevel : levelOfAnyCase v = .ok level) :
    r.request name v = ((r.provide name).configure name level,
      .ok (((r.provide name).configure name level).logger name)) := by
  simp [request, hnew, hlevel]

theorem Remembers.settings_configure {calls : List Call} (h : Remembers calls r)
    (hroot : isRoot name = false) (hnew : name ∉ r.configured) {v : Json} {level : Int}
    (hlevel : levelOfAnyCase v = .ok level) :
    (((r.provide name).configure name level).logger name).settings = (level, [name], false) := by
  rw [(h.configure hroot hnew hlevel).settings name hroot, firstLevel?_append,
    h.firstLevel?_eq_none hnew, Option.none_or, Call.levelFor?, if_pos rfl, hlevel]
  rfl

end Requests

/-- After any calls, a name is configured exactly if a valid level was asked for under it, and its
logger has the first one, one handler, and keeps its records to itself. A later request for it
changes nothing and returns the logger that the registry holds. A request with an unknown level name
fails and changes no settings, so that one with a valid level configures the name as it would have
before, and returns its logger. Each logger keeps its number in all later calls, and no other one
has it. A record whose level is above zero and reaches the one of its name is written once, by the
nearest configured logger on the way up, if there is one, and a record below that level is not
written. The way up goes by the names. -/
theorem first_wins (calls : List Call)
    (hcalls : ∀ name v, .request name v ∈ calls → isRoot name = false) :
    let r := initial.after calls
    (∀ name, name ∈ r.configured ↔ ∃ v, .request name v ∈ calls ∧ IsLevel v) ∧
    (∀ name ∈ r.configured, ∃ level, firstLevel? name calls = some level ∧
      (r.logger name).settings = (level, [name], false)) ∧
    (∀ name ∈ r.configured, ∀ v, r.request name v = (r, .ok (r.logger name))) ∧
    (∀ name, name ∉ r.configured → ∀ s, ¬ IsLevel (.text s) →
      (r.request name (.text s)).2 =
        .error (.unknown ("Level " ++ String.ofList (Text.upper s.toList))) ∧
      (r.request name (.text s)).1.configured = r.configured ∧
      ∀ c, ((r.request name (.text s)).1.logger c).settings = (r.logger c).settings) ∧
    (∀ name, isRoot name = false → name ∉ r.configured →
      ∀ v level, levelOfAnyCase v = .ok level →
        (r.request name v).2 = .ok ((r.request name v).1.logger name) ∧
        ((r.request name v).1.logger name).settings = (level, [name], false)) ∧
    (∀ name x, r.logger? name = some x →
      (∀ later, ∃ y, (r.after later).logger? name = some y ∧ y.id = x.id) ∧
      ∀ other y, r.logger? other = some y → y.id = x.id →
        other = name ∨ isRoot other = true ∧ isRoot name = true) ∧
    (∀ name level, (0 < level ∧ r.effectiveLevel name ≤ level → r.written name level =
        (((r.provide name).path name).find? (· ∈ r.configured)).toList) ∧
      (level < r.effectiveLevel name → r.written name level = [])) ∧
    ∀ name, isRoot name = false → ∃ parent,
      (r.provide name).path name = name :: parent.elim [] (r.provide name).path ∧
      Below parent ((r.provide name).nearest? name) := by
  intro r
  have h : Remembers calls r := remembers_after calls hcalls
  refine ⟨fun name => (h.mem_configured name).trans isSome_firstLevel?_iff,
    fun name hmem => h.settings_of_mem_configured hmem, fun name hmem => h.request_eq hmem,
    fun name hnew s hs => ?_, fun name hroot hnew v level hlevel => ?_,
    fun name x hx => ⟨exists_id_after hx, fun other y => h.numbered.eq_or_isRoot hx⟩,
    fun name level => ⟨fun ⟨hpositive, hreaches⟩ => h.written_eq hpositive hreaches,
      written_of_lt⟩,
    fun name hroot => ?_⟩
  · rw [request_of_not_isLevel hnew hs]
    exact ⟨rfl, configured_provide r name, settings_provide r name⟩
  · rw [request_of_level hnew hlevel]
    exact ⟨rfl, h.settings_configure hroot hnew hlevel⟩
  · obtain ⟨x, hx⟩ := exists_lookup_provide (r := r) hroot
    have hlinked := h.linked.provide name
    exact ⟨x.parent, path_of_lookup hlinked hx, hlinked.below name x hx⟩

/-- A logger can hear of records below zero, but none of them is written. -/
theorem silent_below_zero :
    let r := initial.after [.request "a" (.int (-5))]
    "a" ∈ r.configured ∧ r.effectiveLevel "a" ≤ -3 ∧ r.written "a" (-3) = [] := by
  decide

theorem first_wins_above :
    let calls : List Call := [.request "a.b" (.text "loud"), .request "a" (.text "Debug"),
      .record "a.b.c", .request "a" (.int 50)]
    let r := initial.after calls
    (∀ name v, .request name v ∈ calls → isRoot name = false) ∧
      ("a" ∈ r.configured ∧ ∃ level, firstLevel? "a" calls = some level ∧ level = 10 ∧
        (r.logger "a").settings = (level, ["a"], false)) ∧
      (∀ v, r.request "a" v = (r, .ok (r.logger "a"))) ∧
      ("a.b" ∉ r.configured ∧
        (r.request "a.b" (.int 40)).2 = .ok ((r.request "a.b" (.int 40)).1.logger "a.b") ∧
        ((r.request "a.b" (.int 40)).1.logger "a.b").settings = (40, ["a.b"], false)) ∧
      r.written "a.b.c" 10 = ["a"] ∧ r.written "a.b.c" 9 = [] := by
  intro calls r
  have hcalls : ∀ name v, .request name v ∈ calls → isRoot name = false := by
    intro name v hmem
    simp only [calls, List.mem_cons, Call.request.injEq, reduceCtorEq, List.not_mem_nil, or_false,
      false_or] at hmem
    rcases hmem with ⟨rfl, -⟩ | ⟨rfl, -⟩ | ⟨rfl, -⟩ <;> decide
  obtain ⟨hconfigured, hfirst, hsame, -, hvalid, -, hwritten, -⟩ := first_wins calls hcalls
  have ha : "a" ∈ r.configured :=
    (hconfigured "a").mpr ⟨.int 50, by simp [calls], .inl ⟨50, rfl⟩⟩
  have hb : "a.b" ∉ r.configured := by decide +kernel
  obtain ⟨level, hlevel, hsettings⟩ := hfirst "a" ha
  have hten : firstLevel? "a" calls = some 10 := by decide +kernel
  refine ⟨hcalls, ⟨ha, level, hlevel, Option.some.inj (hlevel.symm.trans hten), hsettings⟩,
    hsame "a" ha, ⟨hb, hvalid "a.b" rfl hb (.int 40) 40 rfl⟩, ?_,
    (hwritten "a.b.c" 9).2 (by decide +kernel)⟩
  exact ((hwritten "a.b.c" 10).1 (by decide +kernel)).trans (by decide +kernel)

end Registry

end AdfMarkdown.Log
