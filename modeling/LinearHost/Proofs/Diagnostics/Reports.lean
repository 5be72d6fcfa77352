import LinearHost.Diagnostics.Report
import LinearHost.Proofs.Diagnostics.Once

/-!
# What diagnostics keep of reports

Diagnostics remember the messages of the reports that were to appear only once, and no others. So
such a report is recorded if it is the first of its kind with its message; every other report is
recorded anyway. What is recorded stays in order and is passed on to the sink in the same order, and
the counts and the summary are of it.

## Main definitions

* `Report.entry`, `Report.isOnce`: what a report is about, and whether it is to appear only once.
* `Sink.Passes`: a sink before and after some entries.
* `Diagnostics.Performed`: the two things that can become of a report.
* `Diagnostics.Recorded`: what a list of reports leaves behind.
* `Diagnostics.reports_kept`: what is recorded of reports to new diagnostics, counted and summarized.
-/

namespace LinearHost

namespace Report

def entry : Report → Diagnostic
  | plain severity category message => { severity, category, message }
  | warnOnce category message => { severity := .warning, category, message }
  | push entry | pushOnce entry => entry

def isOnce : Report → Bool
  | plain .. | push _ => false
  | warnOnce .. | pushOnce _ => true

/-- A report that is to appear only once is the first one of its kind with its message. -/
def Fresh (earlier : List Report) (report : Report) : Prop :=
  report.isOnce = true → ∀ other ∈ earlier, other.isOnce = true →
    other.entry.message ≠ report.entry.message

end Report

/-- What a sink is after some entries, and the events that were noted for them. -/
inductive Sink.Passes : Sink → List Diagnostic → List Event → Sink → Prop where
  | journal (entries : List Diagnostic) : Passes .journal entries (entries.map .reported) .journal
  | recorder (received entries : List Diagnostic) :
      Passes (.recorder received) entries [] (.recorder (received ++ entries))

namespace Diagnostics

/-- The entries of the reports that were answered to be recorded. -/
def accepted (reports : List Report) (answers : List Bool) : List Diagnostic :=
  ((reports.zip answers).filter Prod.snd).map fun answered => answered.1.entry

/-- The texts about the entries of a severity: a heading and one for each of them, or nothing. -/
def paragraph (entries : List Diagnostic) (severity : Severity) : List String :=
  match entries.filter (·.severity = severity) with
  | [] => []
  | listed => s!"\n{severity.text}:\n" :: listed.map fun entry => s!"  {entry.text}\n"

variable {d mid after : Diagnostics} {sink middle last : Sink} {entries more : List Diagnostic}
  {events noted : List Event} {report : Report} {earlier reports : List Report} {fresh : Bool}
  {answers : List Bool} {severity : Severity}

/-! ### Sinks -/

theorem passes_nil (sink : Sink) : sink.Passes [] [] sink := by
  cases sink with
  | journal => exact .journal []
  | recorder received => simpa using Sink.Passes.recorder received []

theorem passes_receive (entry : Diagnostic) (sink : Sink) :
    sink.Passes [entry] (sink.noted entry) (sink.receive entry) := by
  cases sink with
  | journal => exact .journal [entry]
  | recorder received => exact .recorder received [entry]

theorem passes_append (first : sink.Passes entries noted middle)
    (second : middle.Passes more events last) :
    sink.Passes (entries ++ more) (noted ++ events) last := by
  cases first with
  | journal =>
    cases second
    rw [← List.map_append]
    exact .journal (entries ++ more)
  | recorder received =>
    cases second
    rw [List.append_assoc]
    exact .recorder received (entries ++ more)

/-! ### One report -/

inductive Performed (d : Diagnostics) (report : Report) :
    (fresh : Bool) → List Event → Diagnostics → Prop where
  | plain (plain : report.isOnce = false) :
      Performed d report true (d.sink.noted report.entry) (d.add report.entry)
  | first (once : report.isOnce = true) (new : report.entry.message ∉ d.seen) :
      Performed d report true (d.sink.noted report.entry)
        ({ d with seen := d.seen ++ [report.entry.message] }.add report.entry)
  | repeated (once : report.isOnce = true) (known : report.entry.message ∈ d.seen) :
      Performed d report false [] d

theorem perform_of_plain (plain : report.isOnce = false) (d : Diagnostics) :
    perform report d = ⟨.ok true, d.add report.entry, d.sink.noted report.entry⟩ := by
  cases report with
  | plain => simp [perform, Diagnostics.report, Report.entry, Action.bind_apply, push_apply]
  | push => simp [perform, Report.entry, Action.bind_apply, push_apply]
  | warnOnce | pushOnce => cases plain

theorem perform_of_once (once : report.isOnce = true) (d : Diagnostics) :
    perform report d = pushOnce report.entry d := by
  cases report with
  | plain | push => cases once
  | warnOnce | pushOnce => rfl

theorem perform_cases (report : Report) (d : Diagnostics) :
    ∃ fresh noted after, perform report d = ⟨.ok fresh, after, noted⟩ ∧
      Performed d report fresh noted after := by
  cases once : report.isOnce with
  | false => exact ⟨_, _, _, perform_of_plain once d, .plain once⟩
  | true =>
    rw [perform_of_once once, pushOnce_apply, addOnce]
    by_cases known : report.entry.message ∈ d.seen
    · exact ⟨false, [], d, by simp [known], .repeated once known⟩
    · exact ⟨true, _, _, by simp only [known, if_false]; rfl, .first once known⟩

/-- The messages that are remembered are those of the reports that were to appear only once. -/
def Remembers (d : Diagnostics) (earlier : List Report) : Prop :=
  ∀ message, message ∈ d.seen ↔
    ∃ other ∈ earlier, other.isOnce = true ∧ other.entry.message = message

/-- A report is recorded exactly if it is fresh. -/
theorem Remembers.fresh_iff (remembers : d.Remembers earlier)
    (performed : Performed d report fresh noted after) :
    fresh = true ↔ report.Fresh earlier := by
  have new : report.entry.message ∉ d.seen ↔
      ∀ other ∈ earlier, other.isOnce = true → other.entry.message ≠ report.entry.message := by
    simp [remembers report.entry.message]
  rw [Report.Fresh, ← new]
  cases performed with
  | plain plain => simp [plain]
  | first once unseen => simp [unseen]
  | repeated once known => simp [once, known]

theorem Remembers.performed (remembers : d.Remembers earlier)
    (performed : Performed d report fresh noted after) :
    after.Remembers (earlier ++ [report]) := by
  intro message
  have split : (∃ other ∈ earlier ++ [report], other.isOnce = true ∧
        other.entry.message = message) ↔
      message ∈ d.seen ∨ report.isOnce = true ∧ report.entry.message = message := by
    simp [remembers message, or_and_right, exists_or]
  rw [split]
  cases performed with
  | plain plain => simp [add, plain]
  | first once new => simp [add, once, eq_comm]
  | repeated once known =>
    refine ⟨Or.inl, ?_⟩
    rintro (mem | ⟨-, rfl⟩)
    · exact mem
    · exact known

/-! ### Many reports -/

@[simp] theorem accepted_nil : accepted [] answers = [] := rfl

@[simp] theorem accepted_cons :
    accepted (report :: reports) (fresh :: answers) =
      (if fresh then [report.entry] else []) ++ accepted reports answers := by
  cases fresh <;> rfl

/-- What is left behind by reports that follow earlier ones. -/
structure Recorded (d : Diagnostics) (earlier reports : List Report) (answers : List Bool)
    (events : List Event) (after : Diagnostics) : Prop where
  length_eq : answers.length = reports.length
  fresh_iff : ∀ (i : Nat) (report : Report), reports[i]? = some report →
    (answers[i]? = some true ↔ report.Fresh (earlier ++ reports.take i))
  entries_eq : after.entries = d.entries ++ accepted reports answers
  passes : d.sink.Passes (accepted reports answers) events after.sink

theorem Performed.entries_eq (performed : Performed d report fresh noted after) :
    after.entries = d.entries ++ if fresh then [report.entry] else [] := by
  cases performed with
  | plain | first => rfl
  | repeated => exact (List.append_nil _).symm

/-- A sink receives what was recorded, and nothing else. -/
theorem Performed.passes (performed : Performed d report fresh noted after) :
    d.sink.Passes (if fresh then [report.entry] else []) noted after.sink := by
  cases performed with
  | plain | first => exact passes_receive report.entry d.sink
  | repeated => exact passes_nil d.sink

/-- A report before the others adds its answer, its entry and its event in front of theirs. -/
theorem Recorded.cons (remembers : d.Remembers earlier)
    (performed : Performed d report fresh noted mid)
    (recorded : Recorded mid (earlier ++ [report]) reports answers events after) :
    Recorded d earlier (report :: reports) (fresh :: answers) (noted ++ events) after := by
  refine ⟨congrArg Nat.succ recorded.length_eq, fun i other found => ?_, ?_, ?_⟩
  · cases i with
    | zero =>
      obtain rfl : report = other := by simpa using found
      simpa using remembers.fresh_iff performed
    | succ i =>
      simpa using recorded.fresh_iff i other found
  · rw [recorded.entries_eq, performed.entries_eq, accepted_cons, List.append_assoc]
  · rw [accepted_cons]
    exact passes_append performed.passes recorded.passes

/-- All that is left behind by reports, by induction on their list. -/
theorem performAll_recorded (remembers : d.Remembers earlier) (reports : List Report) :
    ∃ answers events after, performAll reports d = ⟨.ok answers, after, events⟩ ∧
      Recorded d earlier reports answers events after := by
  -- whatever was reported before: it decides which of the reports are still fresh
  induction reports generalizing d earlier with
  | nil => exact ⟨[], [], d, rfl, rfl, nofun, (List.append_nil _).symm, passes_nil d.sink⟩
  | cons report rest ih =>
    obtain ⟨fresh, noted, mid, first, performed⟩ := perform_cases report d
    obtain ⟨answers, events, after, others, recorded⟩ := ih (remembers.performed performed)
    refine ⟨fresh :: answers, noted ++ events, after, ?_, recorded.cons remembers performed⟩
    simp [performAll, Action.bind_apply, first, others]

/-! ### Counts and summary -/

/-- Every entry has one of the three severities. -/
theorem countOf_add (d : Diagnostics) :
    d.countOf .error + d.countOf .warning + d.countOf .info = d.count := by
  rw [countOf, countOf, countOf, ofSeverity, ofSeverity, ofSeverity, count]
  induction d.entries with
  | nil => rfl
  | cons entry entries ih =>
    cases severity : entry.severity <;> simp [severity] <;> omega

theorem has_iff : d.has severity = true ↔ 0 < d.countOf severity := by
  simp [has, countOf, ofSeverity, List.length_pos_iff_exists_mem]

/-- A listing is the paragraph of its severity. -/
theorem listing_eq (d : Diagnostics) (severity : Severity) :
    d.listing severity = String.join (paragraph d.entries severity) := by
  rw [listing, paragraph, ofSeverity]
  split <;> simp [String.join_cons, *]

def headline (errors warnings infos : Nat) : String :=
  s!"Diagnostics: {errors} error(s), {warnings} warning(s), {infos} info(s)\n"

/-- A summary is a headline and the paragraphs of errors and warnings. -/
theorem summary_eq (d : Diagnostics) :
    d.summary = String.join (headline (d.countOf .error) (d.countOf .warning) (d.countOf .info) ::
      (paragraph d.entries .error ++ paragraph d.entries .warning)) := by
  -- only the definitions are opened: rewriting with them would evaluate the texts
  unfold summary headline
  simp only [listing_eq, String.join_cons, String.join_append, String.append_assoc]

/-- The line of an entry shows its severity, its category and its message, and then where it was. -/
theorem exists_text_eq (entry : Diagnostic) :
    ∃ place, entry.text =
      s!"[{entry.severity.text}] {entry.category.text}: {entry.message}" ++ place :=
  ⟨_, String.append_assoc⟩

/-- Diagnostics lose no report, repeat none and keep their order. The summary has a line for each
error and for each warning, which shows the severity, the category and the message. -/
theorem reports_kept (reports : List Report) (sink : Sink) :
    ∃ answers events d, performAll reports { sink } = ⟨.ok answers, d, events⟩ ∧
      answers.length = reports.length ∧
      d.entries = accepted reports answers ∧
      sink.Passes d.entries events d.sink ∧
      (∀ (i : Nat) (report : Report), reports[i]? = some report →
        (report.isOnce = false → answers[i]? = some true) ∧
        (report.isOnce = true → (answers[i]? = some true ↔
          ∀ other ∈ reports.take i, other.isOnce = true →
            other.entry.message ≠ report.entry.message))) ∧
      d.countOf .error + d.countOf .warning + d.countOf .info = d.count ∧
      d.count = d.entries.length ∧
      (∀ severity, d.countOf severity = d.entries.countP (·.severity = severity)) ∧
      (∀ severity, d.has severity = true ↔ 0 < d.countOf severity) ∧
      (d.hasAny = true ↔ 0 < d.count) ∧
      d.summary =
        String.join (headline (d.countOf .error) (d.countOf .warning) (d.countOf .info) ::
          (paragraph d.entries .error ++ paragraph d.entries .warning)) ∧
      ∀ entry ∈ d.entries, ∃ place, entry.text =
        s!"[{entry.severity.text}] {entry.category.text}: {entry.message}" ++ place := by
  have forgetful : Remembers { sink } [] := fun message => by simp
  obtain ⟨answers, events, d, outcome, recorded⟩ := performAll_recorded forgetful reports
  have entries_eq : d.entries = accepted reports answers := by
    simpa using recorded.entries_eq
  refine ⟨answers, events, d, outcome, recorded.length_eq, entries_eq,
    entries_eq ▸ recorded.passes, fun i report found => ?_, countOf_add d, rfl,
    fun severity => List.countP_eq_length_filter.symm, fun severity => has_iff, decide_eq_true_iff,
    summary_eq d, fun entry _ => exists_text_eq entry⟩
  have fresh := recorded.fresh_iff i report found
  rw [List.nil_append] at fresh
  refine ⟨fun plain => fresh.mpr fun once => ?_, fun once => ?_⟩
  · rw [plain] at once
    cases once
  · exact fresh.trans ⟨fun fresh => fresh once, fun unlike _ => unlike⟩

end Diagnostics
end LinearHost
