import WorkflowLint.Proofs.Reports

/-!
# Reports in JSON are faithful

A report in JSON can be sent anywhere and loses nothing on the way. Its text is plain: printable
ASCII characters in lines, whatever the paths and the messages are made of. And what it shows can be
read from it, file by file and diagnostic by diagnostic, so that reports on different things are
different texts.

## Main definitions

* `WorkflowLint.Json.IsPlain`, `WorkflowLint.Json.PlainLines` — what plain text is made of.
* `WorkflowLint.LintResult.shown` — what is reported about a file.
* `WorkflowLint.Report.results?` — what a report in JSON says.

## Main results

* `WorkflowLint.Json.plainLines_render` — the text of a JSON value is plain.
* `WorkflowLint.Report.results?_json` — a report says what is to be reported.
* `WorkflowLint.Report.render_json_faithful` — the text of a report is plain and says it, too.
-/

set_option autoImplicit false

namespace WorkflowLint

namespace Json

/-! ## Plain text -/

/-- A printable ASCII character. -/
def IsPlain (c : Char) : Prop := ' ' ≤ c ∧ c ≤ '~'

instance (c : Char) : Decidable (IsPlain c) := inferInstanceAs (Decidable (_ ∧ _))

lemma isPlain_digitChar {d : Nat} (h : d < 16) : IsPlain d.digitChar := by
  have hall : ∀ d < 16, IsPlain d.digitChar := by decide
  exact hall d h

lemma isPlain_toDigits {base : Nat} (hbase : 1 < base) (hle : base ≤ 16) (n : Nat) :
    ∀ c ∈ Nat.toDigits base n, IsPlain c := by
  induction n using Nat.strongRecOn with
  | _ n ih =>
    by_cases hlt : n < base
    · rw [Nat.toDigits_of_lt_base hlt]
      simpa using isPlain_digitChar (by omega)
    · have hpos : 0 < n := by omega
      rw [Nat.toDigits_of_base_le hbase (Nat.le_of_not_lt hlt), List.forall_mem_append]
      refine ⟨ih _ (Nat.div_lt_self hpos hbase), ?_⟩
      simpa using isPlain_digitChar (Nat.lt_of_lt_of_le (Nat.mod_lt n (by omega)) hle)

lemma isPlain_hexDigits (width n : Nat) : ∀ c ∈ Text.hexDigits width n, IsPlain c := by
  rw [Text.hexDigits, List.forall_mem_append]
  refine ⟨fun c hc => ?_, isPlain_toDigits (by decide) (by decide) n⟩
  rw [List.eq_of_mem_replicate hc]
  decide

lemma isPlain_unitEscape (n : Nat) : ∀ c ∈ unitEscape n, IsPlain c := by
  rw [unitEscape, List.forall_mem_append]
  exact ⟨by simp [IsPlain], isPlain_hexDigits 4 n⟩

lemma isPlain_charText (c : Char) : ∀ d ∈ charText c, IsPlain d := by
  fun_cases charText c with
  | case8 _ _ _ _ _ _ _ hplain =>
    rw [Bool.and_eq_true, decide_eq_true_eq, decide_eq_true_eq] at hplain
    exact List.forall_mem_singleton.2 hplain
  | case9 => exact isPlain_unitEscape _
  | case10 =>
    rw [List.forall_mem_append]
    exact ⟨isPlain_unitEscape _, isPlain_unitEscape _⟩
  | _ => simp [IsPlain]

/-- **Between quotes there are printable ASCII characters only**, the quotes included. -/
lemma isPlain_quotedText (s : String) : ∀ c ∈ quotedText s, IsPlain c := by
  rw [quotedText, List.forall_mem_append, List.forall_mem_append]
  refine ⟨⟨by simp [IsPlain], fun c hc => ?_⟩, by simp [IsPlain]⟩
  obtain ⟨d, -, hd⟩ := List.mem_flatMap.1 hc
  exact isPlain_charText d c hd

/-- The character behind the printable ones is escaped, too; one beyond the first plane is two. -/
example : quotedText "\x7f😀" = "\"\\u007f\\ud83d\\ude00\"".toList := by decide

lemma isPlain_toString (n : Int) : ∀ c ∈ (toString n).toList, IsPlain c := by
  rw [toList_toString, List.forall_mem_append]
  refine ⟨?_, isPlain_toDigits (by decide) (by decide) _⟩
  split <;> simp [IsPlain]

/-- Lines of printable ASCII characters. -/
def PlainLines (cs : List Char) : Prop := ∀ c ∈ cs, c = '\n' ∨ IsPlain c

namespace PlainLines

@[simp] lemma append_iff {cs ds : List Char} :
    PlainLines (cs ++ ds) ↔ PlainLines cs ∧ PlainLines ds :=
  List.forall_mem_append

@[simp] lemma nil : PlainLines [] := List.forall_mem_nil _

@[simp] lemma cons_iff {c : Char} {cs : List Char} :
    PlainLines (c :: cs) ↔ (c = '\n' ∨ IsPlain c) ∧ PlainLines cs :=
  List.forall_mem_cons

@[simp] lemma quotedText (s : String) : PlainLines (quotedText s) :=
  fun c hc => .inr (isPlain_quotedText s c hc)

@[simp] lemma number (n : Int) : PlainLines n.repr.toList :=
  fun c hc => .inr (isPlain_toString n c hc)

@[simp] lemma newline (margin : Nat) : PlainLines (newline margin) := by
  rw [Json.newline, cons_iff]
  refine ⟨.inl rfl, fun c hc => .inr ?_⟩
  rw [List.eq_of_mem_replicate hc]
  decide

end PlainLines

mutual

/-- The text of a value is made of lines of printable ASCII characters. -/
lemma plainLines_renderAt (margin : Nat) : ∀ v, PlainLines (renderAt margin v)
  | .null | .truth true | .truth false => by simp [renderAt, IsPlain]
  | .number n => by simp [renderAt]
  | .decimal digits exponent => by simp [renderAt, IsPlain]
  | .text s => by simp [renderAt]
  | .list [] | .record [] => by simp [renderAt, IsPlain]
  | .list (item :: items) => by
    have hitem := plainLines_renderAt (margin + 2) item
    have hitems := plainLines_renderItems (margin + 2) items
    simp [renderAt, IsPlain, hitem, hitems]
  | .record ((key, v) :: fields) => by
    have hv := plainLines_renderAt (margin + 2) v
    have hfields := plainLines_renderFields (margin + 2) fields
    simp [renderAt, IsPlain, hv, hfields]

lemma plainLines_renderItems (margin : Nat) : ∀ items, PlainLines (renderItems margin items)
  | [] => by simp [renderItems]
  | item :: items => by
    have hitem := plainLines_renderAt margin item
    have hitems := plainLines_renderItems margin items
    simp [renderItems, IsPlain, hitem, hitems]

lemma plainLines_renderFields (margin : Nat) : ∀ fields, PlainLines (renderFields margin fields)
  | [] => by simp [renderFields]
  | (key, v) :: fields => by
    have hv := plainLines_renderAt margin v
    have hfields := plainLines_renderFields margin fields
    simp [renderFields, IsPlain, hv, hfields]

end

/-- A text of printable ASCII characters in lines. -/
lemma plainLines_render (v : Json) : PlainLines v.render.toList := by
  rw [render, String.toList_ofList]
  exact plainLines_renderAt 0 v

end Json

/-! ## What a report says -/

/-- The severity with the given name, if there is one. -/
def Severity.ofName? (s : String) : Option Severity :=
  [error, warning].find? fun severity => severity.name == s

lemma Severity.ofName?_name (severity : Severity) : ofName? severity.name = some severity := by
  cases severity <;> decide

/-- What is reported about a file: its path, and what its diagnostics show. -/
def LintResult.shown (r : LintResult) : String × List (Severity × String × Range) :=
  (r.path, r.diagnostics.map Diagnostic.shown)

namespace Report

/-- Read a diagnostic. -/
def diagnostic? (v : Json) : Option (Severity × String × Range) := do
  let severity ← v.field? "severity" >>= Json.text? >>= Severity.ofName?
  let message ← v.field? "message" >>= Json.text?
  return (severity, message, ← v.field? "range" >>= range?)

/-- Read what is reported about a file. -/
def result? (v : Json) : Option (String × List (Severity × String × Range)) := do
  let path ← v.field? "path" >>= Json.text?
  return (path, ← (← v.field? "diagnostics" >>= Json.items?).mapM diagnostic?)

/-- Read a report, file by file. -/
def results? (v : Json) : Option (List (String × List (Severity × String × Range))) := do
  (← v.items?).mapM result?

lemma diagnostic?_diagnosticJson (d : Diagnostic) :
    diagnostic? (diagnosticJson d) = some d.shown := by
  have hname := Severity.ofName?_name d.severity
  simp [diagnostic?, diagnosticJson, Json.field?, Json.text?, hname]
  rfl

lemma result?_resultJson (r : LintResult) : result? (resultJson r) = some r.shown := by
  have hpath : (resultJson r).field? "path" = some (.text r.path) := rfl
  have hitems : (resultJson r).field? "diagnostics" =
      some (.list (r.diagnostics.map diagnosticJson)) := rfl
  have hdiagnostics := mapM_map_eq_some diagnostic?_diagnosticJson r.diagnostics
  simp [result?, hpath, hitems, Json.text?, Json.items?, hdiagnostics, LintResult.shown]

/-- A report is read file by file, in order. -/
lemma results?_json (rs : List LintResult) :
    results? (json rs) = some (rs.map LintResult.shown) := by
  rw [results?, json, Json.items?]
  exact mapM_map_eq_some result?_resultJson rs

/-- The text of a report in JSON has no control sequences to remove. -/
lemma line_render_json (rs : List LintResult) : line (json rs).render = render .json rs := by
  have hescape : '\x1b' ∉ (json rs).render.toList := by
    intro hc
    obtain hfeed | hplain := Json.plainLines_render (json rs) _ hc
    · cases hfeed
    · exact absurd hplain (by decide)
  rw [line, Text.stripAnsi_eq_self hescape, render]

/-- **A report in JSON is faithful.** For any results, whatever their paths and messages are and
whichever integers their ranges hold,

* the text consists of printable ASCII characters and line feeds, and none of the line feeds is
  between quotes;
* it is written as it is, without a control sequence that would have to be removed;
* by the grammar of JSON it means one value, and from that value the paths can be read and, of each
  diagnostic, severity, message and range, in order;
* reports that are the same text list the same.

**Proof sketch.** The text of a JSON value means that value and no other, so it is enough to read
the value of the report, field by field. -/
theorem render_json_faithful (rs : List LintResult) :
    (∀ c ∈ (render .json rs).toList, c = '\n' ∨ Json.IsPlain c) ∧
      (∀ s, ∀ c ∈ Json.quotedText s, Json.IsPlain c) ∧
      line (json rs).render = render .json rs ∧
      (∀ v, Json.Means (render .json rs) v ↔ v = json rs) ∧
      results? (json rs) = some (rs.map LintResult.shown) ∧
      ∀ rs', render .json rs = render .json rs' →
        rs.map LintResult.shown = rs'.map LintResult.shown := by
  have hread (rs : List LintResult) : Json.read? (render .json rs) = some (json rs) := by
    rw [render, Json.read?_render (json rs) (by decide)]
  refine ⟨fun c hc => ?_, Json.isPlain_quotedText, line_render_json rs, fun v => ?_,
    results?_json rs, fun rs' h => ?_⟩
  · obtain hc | hc := List.mem_append.1 (String.toList_append ▸ hc)
    · exact Json.plainLines_render (json rs) c hc
    · exact .inl (List.mem_singleton.1 hc)
  · rw [← Json.read?_eq_some_iff, hread, Option.some.injEq, eq_comm]
  · have hjson : json rs = json rs' := by
      have hboth : some (json rs) = some (json rs') := by rw [← hread rs, h, hread rs']
      exact Option.some.inj hboth
    have hshown : some (rs.map LintResult.shown) = some (rs'.map LintResult.shown) := by
      rw [← results?_json rs, hjson, results?_json rs']
    exact Option.some.inj hshown

end Report

end WorkflowLint
