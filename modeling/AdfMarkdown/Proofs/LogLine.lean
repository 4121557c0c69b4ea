import AdfMarkdown.Log.Record
import AdfMarkdown.Log.Value
import AdfMarkdown.Proofs.JsonWriting

/-! # A line of the log

The line of a record is one line, and reading it gives the fields of the record: the fixed ones and
the extra ones over them, with the last word for what is known about an exception.
-/

namespace AdfMarkdown

namespace Fields

def names (fields : Fields) : List String := fields.map Prod.fst

variable {key : String} {v : Json} {new : Fields}

theorem get?_eq_none_iff {fields : Fields} : get? key fields = none ↔ key ∉ names fields := by
  induction fields with
  | nil => simp [names]
  | cons f rest ih =>
    rw [names] at ih
    by_cases h : f.1 = key
    · simp [names, get?, h]
    · simp [names, get?, h, ih, Ne.symm h]

theorem names_put_of_mem {fields : Fields} (h : key ∈ names fields) :
    names (put key v fields) = names fields := by
  induction fields with
  | nil => cases h
  | cons f rest ih =>
    rw [put]
    split
    · rfl
    · next hne =>
      have hrest : key ∈ names rest := (List.mem_cons.mp h).resolve_left (Ne.symm hne)
      exact congrArg (f.1 :: ·) (ih hrest)

theorem names_put_of_not_mem {fields : Fields} (h : key ∉ names fields) :
    names (put key v fields) = names fields ++ [key] := by
  rw [put_of_not_mem h, names, List.map_append]
  rfl

theorem names_update (hnew : (names new).Nodup) : ∀ fields : Fields,
    names (update fields new) = names fields ++ (names new).filter (· ∉ names fields) := by
  induction new with
  | nil => exact fun fields => (List.append_nil _).symm
  | cons f rest ih =>
    obtain ⟨k, v⟩ := f
    intro fields
    obtain ⟨hk, hrest⟩ : k ∉ names rest ∧ (names rest).Nodup := List.nodup_cons.mp hnew
    have hnames : names ((k, v) :: rest) = k :: names rest := rfl
    have hupdate : update fields ((k, v) :: rest) = update (put k v fields) rest := rfl
    rw [hnames, hupdate, ih hrest]
    by_cases hmem : k ∈ names fields
    · rw [names_put_of_mem hmem, List.filter_cons_of_neg (by simpa using hmem)]
    · have hfilter : (names rest).filter (· ∉ names fields ++ [k]) =
          (names rest).filter (· ∉ names fields) := by
        refine List.filter_congr fun name hname => ?_
        have hne : name ≠ k := fun h => hk (h ▸ hname)
        simp [hne]
      rw [names_put_of_not_mem hmem, hfilter, List.filter_cons_of_pos (by simpa using hmem)]
      simp

theorem nodup_names_update {fields : Fields} (hfields : (names fields).Nodup)
    (hnew : (names new).Nodup) : (names (update fields new)).Nodup := by
  rw [names_update hnew, List.nodup_append]
  refine ⟨hfields, hnew.filter _, fun a ha b hb => ?_⟩
  rintro rfl
  exact absurd ha (by simpa using (List.mem_filter.mp hb).2)

theorem get?_update (hnew : (names new).Nodup) : ∀ fields : Fields,
    get? key (update fields new) = (get? key new).or (get? key fields) := by
  induction new with
  | nil => exact fun fields => rfl
  | cons f rest ih =>
    obtain ⟨k, v⟩ := f
    intro fields
    obtain ⟨hk, hrest⟩ : k ∉ names rest ∧ (names rest).Nodup := List.nodup_cons.mp hnew
    have hupdate : update fields ((k, v) :: rest) = update (put k v fields) rest := rfl
    rw [hupdate, ih hrest, get?]
    split
    · next heq =>
      subst heq
      rw [get?_eq_none_iff.mpr hk, get?_put_self]
      rfl
    · next hne => rw [get?_put_of_ne (Ne.symm hne)]

theorem forall_put {P : Json → Prop} (hv : P v) {fields : Fields} (h : ∀ f ∈ fields, P f.2) :
    ∀ f ∈ put key v fields, P f.2 := by
  induction fields with
  | nil => exact List.forall_mem_singleton.mpr hv
  | cons f rest ih =>
    rw [List.forall_mem_cons] at h
    rw [put]
    split
    · exact List.forall_mem_cons.mpr ⟨hv, h.2⟩
    · exact List.forall_mem_cons.mpr ⟨h.1, ih h.2⟩

theorem forall_update {P : Json → Prop} (hnew : ∀ f ∈ new, P f.2) : ∀ {fields : Fields},
    (∀ f ∈ fields, P f.2) → ∀ f ∈ update fields new, P f.2 := by
  induction new with
  | nil => exact fun h => h
  | cons f rest ih =>
    intro fields h
    rw [List.forall_mem_cons] at hnew
    exact ih hnew.2 (forall_put hnew.1 h)

end Fields

namespace Log

theorem Value.fieldsToJson_eq_map (fields : List (String × Value)) :
    fieldsToJson fields = fields.map fun f => (f.1, f.2.toJson) := by
  induction fields with
  | nil => rw [fieldsToJson, List.map_nil]
  | cons f rest ih => rw [fieldsToJson, ih, List.map_cons]

theorem Value.names_fieldsToJson (fields : List (String × Value)) :
    (fieldsToJson fields).names = fields.map Prod.fst := by
  rw [fieldsToJson_eq_map, Fields.names, List.map_map]
  rfl

theorem Value.get?_fieldsToJson (key : String) (fields : List (String × Value)) :
    Fields.get? key (fieldsToJson fields) = (fields.lookup key).map toJson := by
  rw [fieldsToJson_eq_map]
  induction fields with
  | nil => rfl
  | cons f rest ih =>
    obtain ⟨k, v⟩ := f
    rw [List.map_cons, Fields.get?, List.lookup_cons]
    by_cases h : k = key
    · simp [h]
    · rw [if_neg h, ih, beq_eq_false_iff_ne.mpr (Ne.symm h)]

namespace Record

/-- What the record carries about an exception. -/
def lastFields (r : Record) : Fields :=
  (r.exception.map fun s => ("exception", Json.text s)).toList ++
    ((r.stack.filter (· ≠ "")).map fun s => ("stack_info", Json.text s)).toList

theorem entry_eq (time : String) (r : Record) :
    r.entry time = Fields.update (Fields.update (r.fixedFields time) r.extra) r.lastFields := by
  rw [entry, lastFields]
  cases r.exception <;> cases r.stack.filter (· ≠ "") <;> rfl

theorem sublist_names_lastFields (r : Record) :
    r.lastFields.names.Sublist ["exception", "stack_info"] := by
  rw [lastFields]
  cases r.exception <;> cases r.stack.filter (· ≠ "") <;>
    simp [Fields.names]

theorem nodup_names_lastFields (r : Record) : r.lastFields.names.Nodup :=
  (sublist_names_lastFields r).nodup (by decide)

theorem exact_of_mem_lastFields (r : Record) : ∀ f ∈ r.lastFields, f.2.Exact := by
  rw [lastFields]
  intro f hf
  rw [List.mem_append, Option.mem_toList, Option.mem_toList, Option.map_eq_some_iff,
    Option.map_eq_some_iff] at hf
  rcases hf with ⟨s, -, rfl⟩ | ⟨s, -, rfl⟩ <;> trivial

theorem exact_of_mem_fixedFields (time : String) (r : Record) :
    ∀ f ∈ r.fixedFields time, f.2.Exact := by
  simp [fixedFields, Json.Exact]

theorem names_entry {time : String} {r : Record} (hnames : r.extra.names.Nodup) :
    (r.entry time).names = (r.fixedFields time).names ++
      r.extra.names.filter (· ∉ (r.fixedFields time).names) ++
        r.lastFields.names.filter (· ∉ r.extra.names) := by
  have hlast : r.lastFields.names.filter (· ∉ (r.fixedFields time).names ++
      r.extra.names.filter (· ∉ (r.fixedFields time).names)) =
      r.lastFields.names.filter (· ∉ r.extra.names) := by
    refine List.filter_congr fun name hname => ?_
    have hfixed : name ∉ (r.fixedFields time).names := by
      have hother : ∀ name ∈ ["exception", "stack_info"],
          name ∉ ["ts", "level", "logger", "message"] := by decide
      exact hother name ((sublist_names_lastFields r).subset hname)
    simp [hfixed]
  rw [entry_eq, Fields.names_update (nodup_names_lastFields r), Fields.names_update hnames, hlast]

/-- The line of a record stands on one line and is read as an object with each name once. Its fields
are the fixed ones, with the values of the extra ones of the same names; the other extra ones in
their order; and what the record carries about an exception, in place of an extra field of the same
name or else at the end. -/
theorem line_faithful (time : String) (r : Record) (extra : List (String × Value))
    (hnames : (extra.map Prod.fst).Nodup) (hexact : ∀ f ∈ extra, f.2.toJson.Exact)
    (hextra : r.extra = Value.fieldsToJson extra) :
    (∀ c ∈ (r.line time).toList, 0x20 ≤ c.toNat) ∧
    ∃ fields : Fields, Json.read (r.line time) = .ok (.object fields) ∧ fields.names.Nodup ∧
      fields.names = ["ts", "level", "logger", "message"] ++
        (extra.map Prod.fst).filter (· ∉ ["ts", "level", "logger", "message"]) ++
          r.lastFields.names.filter (· ∉ extra.map Prod.fst) ∧
      ∀ name, Fields.get? name fields = (Fields.get? name r.lastFields).or
        (((extra.lookup name).map Value.toJson).or (Fields.get? name (r.fixedFields time))) := by
  have hextranames : r.extra.names = extra.map Prod.fst := by
    rw [hextra, Value.names_fieldsToJson]
  have hextraexact : ∀ f ∈ r.extra, f.2.Exact := by
    rw [hextra, Value.fieldsToJson_eq_map]
    exact List.forall_mem_map.mpr hexact
  rw [← hextranames] at hnames ⊢
  have hfields : ∀ f ∈ r.entry time, f.2.Exact := by
    rw [entry_eq]
    exact Fields.forall_update (exact_of_mem_lastFields r)
      (Fields.forall_update hextraexact (exact_of_mem_fixedFields time r))
  have hnodup : (r.entry time).names.Nodup := by
    rw [entry_eq]
    exact Fields.nodup_names_update
      (Fields.nodup_names_update (show ["ts", "level", "logger", "message"].Nodup by decide) hnames)
      (nodup_names_lastFields r)
  have hobject : (Json.object (r.entry time)).Exact :=
    ⟨hnodup, Json.exactFields_iff.mpr hfields⟩
  refine ⟨Json.noControl_write _ hobject, r.entry time, Json.read_write hobject, hnodup,
    names_entry hnames, fun name => ?_⟩
  rw [entry_eq, Fields.get?_update (nodup_names_lastFields r), Fields.get?_update hnames, hextra,
    Value.get?_fieldsToJson]

/-- A level and an exception of the caller's own, and an object that JSON cannot write in a list. -/
theorem line_faithful_merged :
    let extra : List (String × Value) := [("level", .int (-5)),
      ("items", .array [.other "a\n\"b", .object [("k", .null)]]), ("exception", .bool true)]
    let r : Record := ⟨warningLevel, "x", "m\x01", Value.fieldsToJson extra, some "E", some ""⟩
    (∀ c ∈ (r.line "T").toList, 0x20 ≤ c.toNat) ∧
    ∃ fields : Fields, Json.read (r.line "T") = .ok (.object fields) ∧
      fields.names = ["ts", "level", "logger", "message", "items", "exception"] ∧
      Fields.get? "level" fields = some (.int (-5)) ∧
      Fields.get? "message" fields = some (.text "m\x01") ∧
      Fields.get? "items" fields = some (.array [.text "a\n\"b", .object [("k", .null)]]) ∧
      Fields.get? "exception" fields = some (.text "E") := by
  intro extra r
  have hexact : ∀ f ∈ extra, f.2.toJson.Exact := by
    rw [List.forall_mem_cons, List.forall_mem_cons, List.forall_mem_singleton]
    exact ⟨@Json.FewDigits.of_digits true ['5'] (List.forall_mem_singleton.mpr rfl) (by decide),
      ⟨trivial, ⟨show ["k"].Nodup by decide, trivial, trivial⟩, trivial⟩, trivial⟩
  obtain ⟨hline, fields, hread, -, hnames, hget⟩ :=
    line_faithful "T" r extra (by decide) hexact rfl
  refine ⟨hline, fields, hread, hnames, ?_, ?_, ?_, ?_⟩
  all_goals
    rw [hget]
    rfl

end Record

end Log

end AdfMarkdown
