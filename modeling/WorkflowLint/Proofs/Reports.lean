import WorkflowLint.Editor.Message
import WorkflowLint.Proofs.JsonText
import WorkflowLint.Report

/-!
# Reports in three forms

The three forms of a report say the same. For people and for editors, the lines are the same and are
followed by the same sentence about the totals; a report in JSON, once it is read, lists the same
diagnostics in the same order. The totals are those of what is listed.

## Main definitions

* `WorkflowLint.Report.listed` — the diagnostics of a run, each with its path.
* `WorkflowLint.Report.Counts` — totals that are those of what is listed.
* `WorkflowLint.Report.listed?` — the diagnostics that a JSON report lists.
* `WorkflowLint.Report.Agree` — three reports on the same results.

## Main results

* `WorkflowLint.Report.counts_ofResults` — the totals of a run are right.
* `WorkflowLint.Report.agree_render` — the reports in the three forms agree.
-/

set_option autoImplicit false

namespace WorkflowLint

/-! ## Control sequences -/

namespace Text

/-- In front of the first escape character, there is nothing to remove. -/
lemma stripAnsiChars_append {cs : List Char} (h : '\x1b' ∉ cs) (ds : List Char) :
    stripAnsiChars (cs ++ ds) = cs ++ stripAnsiChars ds := by
  induction cs with
  | nil => rfl
  | cons c cs ih =>
    rw [List.mem_cons, not_or] at h
    rw [List.cons_append, stripAnsiChars, ih h.2, List.cons_append]
    rintro - rfl
    exact absurd rfl h.1

lemma stripAnsi_append {s : String} (h : '\x1b' ∉ s.toList) (s' : String) :
    stripAnsi (s ++ s') = s ++ stripAnsi s' := by
  rw [stripAnsi, String.toList_append, stripAnsiChars_append h, String.ofList_append,
    String.ofList_toList, stripAnsi]

lemma stripAnsi_eq_self {s : String} (h : '\x1b' ∉ s.toList) : stripAnsi s = s := by
  have happend := stripAnsi_append h ""
  simpa [stripAnsi, stripAnsiChars] using happend

end Text

/-! ## Totals -/

namespace Report

/-- The diagnostics of the results, each with the path of its file, in order. -/
def listed (rs : List LintResult) : List (String × Diagnostic) :=
  rs.flatMap fun r => r.diagnostics.map fun d => (r.path, d)

@[simp] lemma listed_cons (r : LintResult) (rs : List LintResult) :
    listed (r :: rs) = r.diagnostics.map (fun d => (r.path, d)) ++ listed rs := rfl

lemma total_count (severity : Severity) (rs : List LintResult) :
    LintSummary.total (fun r => r.count severity) rs =
      (listed rs).countP fun e => e.2.severity == severity := by
  induction rs with
  | nil => rfl
  | cons r rs ih =>
    rw [listed_cons, List.countP_append, List.countP_map, ← ih]
    rfl

lemma total_length (rs : List LintResult) :
    LintSummary.total (fun r => r.diagnostics.length) rs = (listed rs).length := by
  induction rs with
  | nil => rfl
  | cons r rs ih =>
    rw [listed_cons, List.length_append, List.length_map, ← ih]
    rfl

/-- The totals are those of what is listed, and every diagnostic is an error or a warning. -/
structure Counts (rs : List LintResult) (s : LintSummary) : Prop where
  files : s.files = rs.length
  issues : s.issues = (listed rs).length
  errors : s.errors = (listed rs).countP fun e => e.2.severity == .error
  warnings : s.warnings = (listed rs).countP fun e => e.2.severity == .warning
  issues_eq : s.issues = s.errors + s.warnings

lemma counts_ofResults (rs : List LintResult) : Counts rs (.ofResults rs) := by
  have hissues : (LintSummary.ofResults rs).issues = (listed rs).length :=
    congrArg Nat.cast (total_length rs)
  have herrors : (LintSummary.ofResults rs).errors =
      (listed rs).countP fun e => e.2.severity == .error :=
    congrArg Nat.cast (total_count .error rs)
  have hwarnings : (LintSummary.ofResults rs).warnings =
      (listed rs).countP fun e => e.2.severity == .warning :=
    congrArg Nat.cast (total_count .warning rs)
  refine ⟨rfl, hissues, herrors, hwarnings, ?_⟩
  have hsplit := List.length_eq_countP_add_countP (fun e => e.2.severity == .error) (l := listed rs)
  have hother : (listed rs).countP (fun e => decide ¬(e.2.severity == .error) = true) =
      (listed rs).countP fun e => e.2.severity == .warning := by
    refine List.countP_congr fun e _ => ?_
    cases e.2.severity <;> decide
  rw [hissues, herrors, hwarnings, hsplit, hother, Int.natCast_add]

/-- Nothing was found iff nothing was found in any file. -/
lemma clean_ofResults (rs : List LintResult) :
    (LintSummary.ofResults rs).clean = true ↔ ∀ r ∈ rs, r.diagnostics = [] := by
  rw [LintSummary.clean, (counts_ofResults rs).issues, beq_iff_eq, Int.natCast_eq_zero,
    List.length_eq_zero_iff, listed, List.flatMap_eq_nil_iff]
  simp only [List.map_eq_nil_iff]

/-- A number is written with digits, behind a sign if it is negative. -/
lemma not_mem_toString {c : Char} (hdigit : c.isDigit = false) (hsign : c ≠ '-') (n : Int) :
    c ∉ (toString n).toList := by
  have hdigits (k : Nat) : c ∉ Nat.toDigits 10 k := fun h => by
    simp [Json.isDigit_of_mem_toDigits h] at hdigit
  rw [Json.toList_toString]
  split <;> simp [hdigits, hsign]

lemma escape_not_mem_toString (n : Int) : '\x1b' ∉ (toString n).toList :=
  not_mem_toString (by decide) (by decide) n

/-- The sentence about the totals holds no control sequences. -/
lemma stripAnsi_format (rs : List LintResult) :
    Text.stripAnsi (LintSummary.ofResults rs).format = (LintSummary.ofResults rs).format := by
  refine Text.stripAnsi_eq_self ?_
  delta LintSummary.format
  simp only [String.toList_append, List.mem_append, escape_not_mem_toString, or_false]
  decide

/-! ## Reports -/

/-- What a report in JSON says about a diagnostic. -/
structure Entry where
  /-- The path of the file. -/
  path : String
  /-- The word for the severity. -/
  severity : String
  /-- The wording. -/
  message : String
  /-- The range. -/
  range : Range

/-- The entry for a diagnostic. -/
def Entry.ofDiagnostic (path : String) (d : Diagnostic) : Entry :=
  ⟨path, d.severity.name, d.message, d.range⟩

/-- Read a position. -/
def position? (v : Json) : Option Position := do
  return ⟨← v.field? "line" >>= Json.number?, ← v.field? "character" >>= Json.number?⟩

/-- Read a range. -/
def range? (v : Json) : Option Range := do
  return ⟨← v.field? "start" >>= position?, ← v.field? "end" >>= position?⟩

/-- Read a diagnostic of the file with the given path. -/
def entryOf? (path : String) (v : Json) : Option Entry := do
  let severity ← v.field? "severity" >>= Json.text?
  let message ← v.field? "message" >>= Json.text?
  return ⟨path, severity, message, ← v.field? "range" >>= range?⟩

/-- Read the diagnostics of a file. -/
def entries? (v : Json) : Option (List Entry) := do
  let path ← v.field? "path" >>= Json.text?
  (← v.field? "diagnostics" >>= Json.items?).mapM (entryOf? path)

/-- Read all diagnostics that a report lists, file by file. -/
def listed? (v : Json) : Option (List Entry) := do
  return (← (← v.items?).mapM entries?).flatten

lemma mapM_map_eq_some {α β γ : Type} {f : α → β} {g : β → Option γ} {h : α → γ}
    (hfg : ∀ a, g (f a) = some (h a)) (as : List α) : (as.map f).mapM g = some (as.map h) := by
  induction as with
  | nil => rfl
  | cons a as ih => simp [hfg, ih]

lemma entryOf?_diagnosticJson (path : String) (d : Diagnostic) :
    entryOf? path (diagnosticJson d) = some (.ofDiagnostic path d) := rfl

lemma entries?_resultJson (r : LintResult) :
    entries? (resultJson r) = some (r.diagnostics.map (.ofDiagnostic r.path)) :=
  mapM_map_eq_some (entryOf?_diagnosticJson r.path) r.diagnostics

/-- The diagnostics that a JSON report lists are those of the results, in order. -/
lemma listed?_json (rs : List LintResult) :
    listed? (json rs) = some ((listed rs).map fun e => .ofDiagnostic e.1 e.2) := by
  have hentries := mapM_map_eq_some entries?_resultJson rs
  have hlisted : listed? (json rs) =
      some (rs.map fun r => r.diagnostics.map (Entry.ofDiagnostic r.path)).flatten := by
    rw [listed?, json, Json.items?]
    simp [hentries]
  rw [hlisted, listed, List.map_flatMap, ← List.flatMap_def]
  simp only [List.map_map, Function.comp_def]

/-- Three reports on the same results: the same lines, followed by the totals, for people and for
editors; and a JSON text that, once it is read, lists the same diagnostics in the same order. -/
structure Agree (rs : List LintResult) (out : OutputFormat → String) : Prop where
  human : out .human =
    String.join ((listed rs).map fun e => Text.stripAnsi (e.2.format (some e.1)) ++ "\n") ++
      (LintSummary.ofResults rs).humanLine ++ "\n"
  vscode : out .vscode =
    String.join ((listed rs).map fun e => Text.stripAnsi (e.2.format (some e.1)) ++ "\n") ++
      (LintSummary.ofResults rs).format ++ "\n"
  json : Json.read? (out .json) >>= listed? =
    some ((listed rs).map fun e => .ofDiagnostic e.1 e.2)

lemma lines_eq (rs : List LintResult) :
    lines rs = (listed rs).map fun e => Text.stripAnsi (e.2.format (some e.1)) ++ "\n" := by
  simp [lines, listed, List.map_flatMap, Function.comp_def, line]

/-- The reports in the three forms agree. -/
lemma agree_render (rs : List LintResult) : Agree rs fun format => render format rs where
  human := by rw [render, lines_eq]
  vscode := by rw [render, lines_eq, line, stripAnsi_format, String.append_assoc]
  json := by
    rw [render, Json.read?_render (json rs) (by decide)]
    exact listed?_json rs

end Report

end WorkflowLint
