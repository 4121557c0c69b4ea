import AdfMarkdown.Proofs.Reporting
import AdfMarkdown.Session

/-! # What a session accounts for

A conversion that succeeds is counted, timed and logged, with the warnings that it gives; no other
request leaves a trace. Over a session the counts add up to what was returned, and what is returned
and counted does not depend on what is logged.
-/

namespace AdfMarkdown

def Request.direction? : Request → Option Direction
  | toDocument _ => some .toDocument
  | toMarkdown _ | renderLast => some .toMarkdown
  | load _ | setLevel _ => none

/-- The request is one to the logger and not to the converter. -/
def Request.setsLevel : Request → Bool
  | setLevel _ => true
  | _ => false

def Response.messages : Response → List String
  | document _ warnings | markdown _ warnings => warnings.map Warning.message
  | loaded _ | levelSet => []

def Log.skippedRecord (direction : Direction) (names : List String) : Log.Record :=
  ⟨warningLevel, Session.loggerName, "content skipped",
    [("op", .text direction.name), ("skipped", .array (names.map .text))], none, none⟩

def Log.completeRecord (direction : Direction) (elapsed : Binary64) (warnings : Nat)
    (size : String × Nat) : Log.Record :=
  ⟨debugLevel, Session.loggerName, "conversion complete",
    [("op", .text direction.name), ("duration_ms", .float (elapsed.roundPlaces 3)),
      ("warnings", .int warnings), (size.1, .int size.2)], none, none⟩

structure Call where
  session : Session
  elapsed : Binary64
  request : Request

theorem Rendering.exists_warnings_of_ofJson {document : Json} {r : Rendering}
    (h : Rendering.ofJson document = .ok r) :
    ∃ names : List String, r.warnings = names.map Warning.skipped := by
  cases document with
  | object fields => exact ⟨_, warnings_of_ofBlocks h⟩
  | _ =>
    cases h
    exact ⟨[], rfl⟩

namespace Call

def next (c : Call) : Session := (c.session.step c.elapsed c.request).1

def report (c : Call) : Report := (c.session.step c.elapsed c.request).2

/-- The way of the conversion and the messages that it returned, if the call is a conversion that
succeeded. -/
def conversion? (c : Call) : Option (Direction × List String) :=
  match c.request.direction?, c.report.outcome with
  | some direction, .ok response => some (direction, response.messages)
  | _, _ => none

/-- The measurements and the records of the call are those of the conversion that it is. -/
def Accounted (c : Call) : Prop :=
  match c.conversion? with
  | none => c.report.metrics = [] ∧ c.report.records = []
  | some (direction, messages) =>
    c.report.metrics = [.conversion direction, .duration direction c.elapsed] ++
      (if messages = [] then [] else [.warnings direction messages.length]) ∧
    ∃ names size, messages = names.map Warning.skippedMessage ∧ c.report.records =
      (if messages ≠ [] ∧ c.session.effectiveLevel ≤ Log.warningLevel then
        [Log.skippedRecord direction names] else []) ++
      (if c.session.effectiveLevel ≤ Log.debugLevel then
        [Log.completeRecord direction c.elapsed messages.length size] else [])

theorem conversion?_of_ok {c : Call} {direction : Direction} {response : Response}
    (hdirection : c.request.direction? = some direction) (hok : c.report.outcome = .ok response) :
    c.conversion? = some (direction, response.messages) := by
  rw [conversion?, hdirection, hok]

theorem conversion?_eq_none {c : Call}
    (h : c.request.direction? = none ∨ ∃ e, c.report.outcome = .error e) :
    c.conversion? = none := by
  rw [conversion?]
  rcases h with h | ⟨e, h⟩
  · rw [h]
  · rw [h]
    cases c.request.direction? <;> rfl

theorem accounted_of_silent {c : Call} {outcome : Except RequestError Response}
    (hreport : c.report = ⟨outcome, [], []⟩)
    (h : c.request.direction? = none ∨ ∃ e, outcome = .error e) : c.Accounted := by
  have hconversion : c.conversion? = none := conversion?_eq_none (by rwa [hreport])
  rw [Accounted, hconversion, hreport]
  exact ⟨rfl, rfl⟩

theorem metricsOf_skipped (direction : Direction) (elapsed : Binary64) (names : List String) :
    Session.metricsOf direction elapsed (names.map Warning.skipped) =
      [.conversion direction, .duration direction elapsed] ++
        (if names = [] then [] else [.warnings direction names.length]) := by
  simp [Session.metricsOf]

theorem recordsOf_skipped (s : Session) (direction : Direction) (elapsed : Binary64)
    (names : List String) (size : String × Nat) :
    s.recordsOf direction elapsed (names.map Warning.skipped) size =
      (if names ≠ [] ∧ s.effectiveLevel ≤ Log.warningLevel then
        [Log.skippedRecord direction names] else []) ++
      (if s.effectiveLevel ≤ Log.debugLevel then
        [Log.completeRecord direction elapsed names.length size] else []) := by
  have hskipped : Session.skippedNames (names.map Warning.skipped) = names.map .text := by
    rw [Session.skippedNames, List.map_map]
    rfl
  rw [Session.recordsOf, hskipped]
  by_cases hnames : names = []
  · simp [hnames, Session.logged, Log.completeRecord]
  · simp [hnames, Session.logged, Log.skippedRecord, Log.completeRecord]

theorem accounted_of_converted {c : Call} {direction : Direction} {response : Response}
    {names : List String} {size : String × Nat}
    (hdirection : c.request.direction? = some direction)
    (hreport : c.report = ⟨.ok response,
      Session.metricsOf direction c.elapsed (names.map Warning.skipped),
      c.session.recordsOf direction c.elapsed (names.map Warning.skipped) size⟩)
    (hmessages : response.messages = names.map Warning.skippedMessage) : c.Accounted := by
  have hconversion : c.conversion? = some (direction, names.map Warning.skippedMessage) := by
    rw [← hmessages]
    exact conversion?_of_ok hdirection (by rw [hreport])
  rw [Accounted, hconversion, hreport, metricsOf_skipped, recordsOf_skipped]
  exact ⟨by simp, names, size, rfl, by simp⟩

theorem accounted_toMarkdown {c : Call} {document : Json}
    (hdirection : c.request.direction? = some .toMarkdown)
    (hreport : c.report = c.session.toMarkdown c.elapsed document) : c.Accounted := by
  rw [Session.toMarkdown] at hreport
  cases hr : Rendering.ofJson document with
  | error e =>
    rw [hr] at hreport
    exact accounted_of_silent hreport (.inr ⟨_, rfl⟩)
  | ok r =>
    obtain ⟨names, hnames⟩ := Rendering.exists_warnings_of_ofJson hr
    rw [hr] at hreport
    simp only [hnames] at hreport
    exact accounted_of_converted hdirection hreport (Warning.messages_skipped names)

theorem accounted_toDocument (s : Session) (elapsed : Binary64) (markdown : String) :
    Accounted ⟨s, elapsed, .toDocument markdown⟩ := by
  have hreport : report ⟨s, elapsed, .toDocument markdown⟩ =
      (s.toDocument elapsed markdown).2 := rfl
  rw [Session.toDocument, Conversion.ofMarkdown, Conversion.warnings_ofTokens] at hreport
  exact accounted_of_converted rfl hreport (Warning.messages_skipped _)

theorem exists_report_of_direction?_eq_none {c : Call} (h : c.request.direction? = none) :
    ∃ outcome, c.report = ⟨outcome, [], []⟩ := by
  obtain ⟨s, elapsed, request⟩ := c
  cases request with
  | load payload =>
    rw [report, Session.step]
    cases payload.load <;> exact ⟨_, rfl⟩
  | setLevel level =>
    rw [report, Session.step]
    cases Log.levelOf level <;> exact ⟨_, rfl⟩
  | _ => cases h

/-- Every call in every session is accounted for. -/
theorem accounted (c : Call) : c.Accounted := by
  cases hdirection : c.request.direction? with
  | none =>
    obtain ⟨outcome, hreport⟩ := exists_report_of_direction?_eq_none hdirection
    exact accounted_of_silent hreport (.inl hdirection)
  | some direction =>
    obtain ⟨s, elapsed, request⟩ := c
    cases request with
    | toDocument markdown => exact accounted_toDocument s elapsed markdown
    | toMarkdown document => exact accounted_toMarkdown rfl rfl
    | renderLast => exact accounted_toMarkdown rfl rfl
    | load payload => cases hdirection
    | setLevel level => cases hdirection

end Call

section Counts

namespace Metric

/-- What a measurement adds to the counter of a name for a way. -/
def amount (name : String) (direction : Direction) : Metric → Nat
  | increment counter value way => if counter = name ∧ way = direction then value else 0
  | timing .. => 0

def total (name : String) (direction : Direction) : List Metric → Nat
  | [] => 0
  | m :: rest => m.amount name direction + total name direction rest

theorem total_append (name : String) (direction : Direction) (xs ys : List Metric) :
    total name direction (xs ++ ys) = total name direction xs + total name direction ys := by
  induction xs with
  | nil => simp [total]
  | cons m xs ih => rw [List.cons_append, total, total, ih, Nat.add_assoc]

end Metric

namespace Call

def metrics (calls : List Call) : List Metric := calls.flatMap fun c => c.report.metrics

/-- The messages that each conversion of a way returned, if it succeeded. -/
def returned (direction : Direction) (calls : List Call) : List (List String) :=
  calls.filterMap fun c => c.conversion?.bind fun (way, messages) =>
    if way = direction then some messages else none

theorem total_report (c : Call) (direction : Direction) :
    Metric.total "adfify.conversions_total" direction c.report.metrics =
      (returned direction [c]).length ∧
    Metric.total "adfify.conversion_warnings_total" direction c.report.metrics =
      (returned direction [c]).flatten.length := by
  have haccounted := c.accounted
  rw [Accounted] at haccounted
  cases hconversion : c.conversion? with
  | none =>
    rw [hconversion] at haccounted
    simp [haccounted.1, returned, hconversion, Metric.total]
  | some converted =>
    obtain ⟨way, messages⟩ := converted
    rw [hconversion] at haccounted
    by_cases hway : way = direction <;> by_cases hmessages : messages = [] <;>
      simp [haccounted.1, returned, hconversion, hway, hmessages, Metric.total, Metric.amount,
        Metric.conversion, Metric.duration, Metric.warnings]

/-- The counters hold how many conversions succeeded and how many messages they returned. -/
theorem total_metrics (direction : Direction) (calls : List Call) :
    Metric.total "adfify.conversions_total" direction (metrics calls) =
      (returned direction calls).length ∧
    Metric.total "adfify.conversion_warnings_total" direction (metrics calls) =
      (returned direction calls).flatten.length := by
  induction calls with
  | nil => exact ⟨rfl, rfl⟩
  | cons c calls ih =>
    have hmetrics : metrics (c :: calls) = c.report.metrics ++ metrics calls := rfl
    have hreturned : returned direction (c :: calls) =
        returned direction [c] ++ returned direction calls :=
      List.filterMap_append (l := [c])
    obtain ⟨hconversions, hwarnings⟩ := total_report c direction
    rw [hmetrics, Metric.total_append, Metric.total_append, hconversions, hwarnings, ih.1, ih.2,
      hreturned, List.flatten_append, List.length_append, List.length_append]
    exact ⟨rfl, rfl⟩

end Call

end Counts

namespace Session

def calls (s : Session) : List (Binary64 × Request) → List Call
  | [] => []
  | (elapsed, request) :: rest =>
    ⟨s, elapsed, request⟩ :: (Call.next ⟨s, elapsed, request⟩).calls rest

theorem run_eq_map_report (s : Session) (requests : List (Binary64 × Request)) :
    s.run requests = (s.calls requests).map Call.report := by
  induction requests generalizing s with
  | nil => rfl
  | cons r rest ih => exact congrArg (_ :: ·) (ih _)

end Session

section Level

def Session.withLevel (s : Session) (level : Int) : Session := { s with level }

def Call.answer (c : Call) : Except RequestError Response × List Metric :=
  (c.report.outcome, c.report.metrics)

/-- The answers of the converter, which are those to all requests but the ones to the logger. -/
def Session.answers (s : Session) (requests : List (Binary64 × Request)) :
    List (Except RequestError Response × List Metric) :=
  ((s.calls requests).filter fun c => !c.request.setsLevel).map Call.answer

theorem toMarkdown_withLevel (s : Session) (level : Int) (elapsed : Binary64) (document : Json) :
    ((s.withLevel level).toMarkdown elapsed document).outcome =
        (s.toMarkdown elapsed document).outcome ∧
      ((s.withLevel level).toMarkdown elapsed document).metrics =
        (s.toMarkdown elapsed document).metrics := by
  rw [Session.toMarkdown, Session.toMarkdown]
  cases Rendering.ofJson document <;> exact ⟨rfl, rfl⟩

/-- A request to the converter is answered alike at every level, and leaves the level. -/
theorem Call.answer_withLevel (s : Session) (level : Int) (elapsed : Binary64) {request : Request}
    (h : request.setsLevel = false) :
    answer ⟨s.withLevel level, elapsed, request⟩ = answer ⟨s, elapsed, request⟩ ∧
      next ⟨s.withLevel level, elapsed, request⟩ =
        (next ⟨s, elapsed, request⟩).withLevel level := by
  cases request with
  | toDocument markdown => exact ⟨rfl, rfl⟩
  | toMarkdown document =>
    obtain ⟨houtcome, hmetrics⟩ := toMarkdown_withLevel s level elapsed document
    exact ⟨Prod.ext houtcome hmetrics, rfl⟩
  | renderLast =>
    obtain ⟨houtcome, hmetrics⟩ := toMarkdown_withLevel s level elapsed s.last
    exact ⟨Prod.ext houtcome hmetrics, rfl⟩
  | load payload =>
    simp only [answer, report, next, Session.step]
    cases payload.load <;> exact ⟨rfl, rfl⟩
  | setLevel level => cases h

theorem Call.next_setLevel (s : Session) (elapsed : Binary64) {request : Request}
    (h : request.setsLevel = true) : ∃ n, next ⟨s, elapsed, request⟩ = s.withLevel n := by
  cases request with
  | setLevel level =>
    rw [next, Session.step]
    cases Log.levelOf level with
    | ok n => exact ⟨n, rfl⟩
    | error e => exact ⟨s.level, rfl⟩
  | _ => cases h

theorem Session.answers_cons_of_setsLevel (s : Session) (elapsed : Binary64) {request : Request}
    (h : request.setsLevel = true) (rest : List (Binary64 × Request)) :
    s.answers ((elapsed, request) :: rest) = (Call.next ⟨s, elapsed, request⟩).answers rest := by
  rw [answers, calls, List.filter_cons_of_neg (by simp [h])]
  rfl

theorem Session.answers_cons (s : Session) (elapsed : Binary64) {request : Request}
    (h : request.setsLevel = false) (rest : List (Binary64 × Request)) :
    s.answers ((elapsed, request) :: rest) =
      Call.answer ⟨s, elapsed, request⟩ :: (Call.next ⟨s, elapsed, request⟩).answers rest := by
  rw [answers, calls, List.filter_cons_of_pos (by simp [h])]
  rfl

theorem Session.answers_withLevel (s : Session) (level : Int)
    (requests : List (Binary64 × Request)) :
    s.answers requests =
      (s.withLevel level).answers (requests.filter fun r => !r.2.setsLevel) := by
  induction requests generalizing s with
  | nil => rfl
  | cons r rest ih =>
    obtain ⟨elapsed, request⟩ := r
    cases hsets : request.setsLevel with
    | true =>
      obtain ⟨n, hnext⟩ := Call.next_setLevel s elapsed hsets
      rw [answers_cons_of_setsLevel s elapsed hsets, hnext, ih,
        List.filter_cons_of_neg (by simp [hsets])]
      rfl
    | false =>
      obtain ⟨hanswer, hnext⟩ := Call.answer_withLevel s level elapsed hsets
      rw [answers_cons s elapsed hsets, ih, List.filter_cons_of_pos (by simp [hsets]),
        answers_cons _ elapsed hsets, hanswer, hnext]

end Level

/-- A session gives the reports of its calls, and every call leaves the measurements and records of
the conversion that it is, if it is one that succeeds, and nothing otherwise. The counters hold what
was returned so far. And the answers are the same without the requests that set a level, whatever
the level is. -/
theorem Session.accounts (parser : Markdown.Parser) (level : Int)
    (requests : List (Binary64 × Request)) :
    let calls := (start parser level).calls requests
    (start parser level).run requests = calls.map Call.report ∧
    (∀ c ∈ calls, c.Accounted) ∧
    (∀ direction, Metric.total "adfify.conversions_total" direction (Call.metrics calls) =
        (Call.returned direction calls).length ∧
      Metric.total "adfify.conversion_warnings_total" direction (Call.metrics calls) =
        (Call.returned direction calls).flatten.length) ∧
    ∀ level', (start parser level).answers requests =
      (start parser level').answers (requests.filter fun r => !r.2.setsLevel) := by
  intro calls
  refine ⟨run_eq_map_report _ _, fun c _ => c.accounted, fun direction => ?_, fun level' => ?_⟩
  · exact Call.total_metrics direction calls
  · exact answers_withLevel (start parser level) level' requests

end AdfMarkdown
