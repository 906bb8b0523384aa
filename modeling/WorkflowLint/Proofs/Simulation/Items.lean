import WorkflowLint.Check.Script
import WorkflowLint.Proofs.Simulation.Basic

/-!
# Checking items that are spelled out

In front of tokens that spell an item of a block or a list, a check passes exactly these tokens and
reports exactly the diagnostics of the abstract item. Each lemma executes one item.

## Main results

* `WorkflowLint.Check.julietItem_run`, `WorkflowLint.Check.rubricItem_run`,
  `WorkflowLint.Check.cadenceItem_run`, `WorkflowLint.Check.attachment_run` — items of blocks.
* `WorkflowLint.Check.origin_run`, `WorkflowLint.Check.dependencies_run`,
  `WorkflowLint.Check.attachments_run` — the parts of a `create` statement.
-/

set_option autoImplicit false

namespace WorkflowLint.Check

open Grammar

variable {past ahead : List Token} {eof : Token} {reports : List Diagnostic}
  {definitions : List Definition} {seen : Bool}

/-- An assignment of a `juliet` block. -/
lemma julietItem_run {a : Assignment julietValue} {ts : List Token} (h : a.Spells ts)
    (past rest : List Token) (reports : List Diagnostic) :
    julietItem ⟨past, ts ++ rest, eof, reports, definitions, seen⟩ =
      ((), ⟨ts.reverse ++ past, rest, eof, a.julietDiagnostics.reverse ++ reports, definitions,
        seen⟩) := by
  cases h with
  | mk equals semicolon =>
    unfold julietItem
    by_cases hk : a.key.token.text = "engine"
    · have hv : a.value.token.kind ∈ TokenKind.engineNames := a.value.kind_mem_of_eq (if_pos hk)
      simp [expectName, expectMark, expectEngine, expect_of_mem hv, hk,
        Assignment.julietDiagnostics, complain]
    · have hv : a.value.token.kind ∈ TokenKind.values := a.value.kind_mem_of_eq (if_neg hk)
      simp [expectName, expectMark, expectValue, expect_of_mem hv, hk,
        Assignment.julietDiagnostics, complain]

/-- What a rubric's item adds to the body of its rubric. -/
def rubricStep (body : RubricBody) : RubricItem → RubricBody
  | .criterion label _ _ => { body with criteria := label.token.text :: body.criteria }
  | .tiebreakers labels => { body with tiebreakers := body.tiebreakers ++ labels.map Leaf.token }

/-- A criterion behind its keyword, without a meaning. -/
lemma criterion_run (label : Literal) (worth : Word "points") (points : Numeral)
    (semicolon : Punct .semicolon) (body : RubricBody) :
    criterion body ⟨past, label.token :: worth.token :: points.token :: semicolon.token :: ahead,
        eof, reports, definitions, seen⟩ =
      (rubricStep body (.criterion label points none),
        ⟨semicolon.token :: points.token :: worth.token :: label.token :: past, ahead, eof,
          (RubricItem.criterion label points none).diagnostics.reverse ++ reports, definitions,
          seen⟩) := by
  simp [criterion, RubricBody.enter, expectLiteral, expectKeyword, expectNumber, expectMark,
    rubricStep, RubricItem.diagnostics]

/-- A criterion behind its keyword, with a meaning. -/
lemma criterion_means_run (label : Literal) (worth : Word "points") (points : Numeral)
    (means : Word "means") (meaning : Literal) (semicolon : Punct .semicolon) (body : RubricBody) :
    criterion body ⟨past, label.token :: worth.token :: points.token :: means.token ::
        meaning.token :: semicolon.token :: ahead, eof, reports, definitions, seen⟩ =
      (rubricStep body (.criterion label points (some meaning)),
        ⟨semicolon.token :: meaning.token :: means.token :: points.token :: worth.token ::
          label.token :: past, ahead, eof,
          (RubricItem.criterion label points (some meaning)).diagnostics.reverse ++ reports,
          definitions, seen⟩) := by
  have hblank := complain_congr (allBlank_iff meaning.token.text) .emptyMeaning meaning.token
  simp [criterion, RubricBody.enter, expectLiteral, expectKeyword, expectNumber, expectMark,
    rubricStep, RubricItem.diagnostics, when_report, hblank]

/-- Labels are added to the tiebreakers one after the other. -/
lemma foldl_tiebreakers (labels : List Literal) (body : RubricBody) :
    labels.foldl (fun b l => { b with tiebreakers := b.tiebreakers ++ [l.token] }) body =
      rubricStep body (.tiebreakers labels) := by
  induction labels generalizing body with
  | nil => simp [rubricStep]
  | cons l labels ih => simp [ih, rubricStep]

/-- A list of tiebreakers behind its keyword. -/
lemma tiebreakers_run {labels : List Literal} {ts : List Token} (h : Bracketed labels ts)
    (semicolon : Punct .semicolon) (body : RubricBody) :
    tiebreakers body ⟨past, ts ++ semicolon.token :: ahead, eof, reports, definitions, seen⟩ =
      (rubricStep body (.tiebreakers labels),
        ⟨semicolon.token :: (ts.reverse ++ past), ahead, eof, reports, definitions, seen⟩) := by
  have item_run : ∀ (a : Literal) (b : RubricBody) past rest reports,
      tiebreaker b ⟨past, a.token :: rest, eof, reports, definitions, seen⟩ =
        ({ b with tiebreakers := b.tiebreakers ++ [a.token] },
          ⟨a.token :: past, rest, eof, ([] : List Diagnostic).reverse ++ reports, definitions,
            seen⟩) := by
    intro a b past rest reports
    simp [tiebreaker, expectLiteral]
  cases h with
  | empty opening closing =>
    simp [tiebreakers, expectMark, listed_apply, rubricStep]
  | filled opening closing hc =>
    have hrun := listed_run (by decide) item_run hc closing (semicolon.token :: ahead) body
    have hnone : labels.flatMap (fun _ => ([] : List Diagnostic)) = [] :=
      List.flatMap_eq_nil_iff.2 fun _ _ => rfl
    rw [foldl_tiebreakers, gather_const, hnone] at hrun
    simp [tiebreakers, expectMark, hrun]

/-- An item of a rubric. -/
lemma rubricItem_run {a : RubricItem} {ts : List Token} (h : a.Spells ts) (body : RubricBody)
    (past rest : List Token) (reports : List Diagnostic) :
    rubricItem body ⟨past, ts ++ rest, eof, reports, definitions, seen⟩ =
      (rubricStep body a,
        ⟨ts.reverse ++ past, rest, eof, a.diagnostics.reverse ++ reports, definitions, seen⟩) := by
  cases h with
  | criterion keyword label worth points semicolon =>
    simp [rubricItem, criterion_run]
  | criterionMeans keyword label worth points means meaning semicolon =>
    simp [rubricItem, criterion_means_run]
  | tiebreakers keyword semicolon h =>
    simp [rubricItem, tiebreakers_run h, RubricItem.diagnostics]

/-- The count keys that are known behind an item of a cadence, the latest first. -/
def cadenceStep (keys : List String) : CadenceItem → List String
  | .assign a _ =>
    if a.key.token.text = "variants" ∨ a.key.token.text = "sprints" then a.key.token.text :: keys
    else keys
  | _ => keys

/-- An assignment of a cadence. -/
lemma cadenceAssignment_run (a : Assignment cadenceValue)
    (key_ne : a.key.token.text ≠ "compare" ∧ a.key.token.text ≠ "keep") (equals : Punct .equals)
    (semicolon : Punct .semicolon) (keys : List String) :
    cadenceAssignment keys ⟨past, a.key.token :: equals.token :: a.value.token ::
        semicolon.token :: ahead, eof, reports, definitions, seen⟩ =
      (cadenceStep keys (.assign a key_ne),
        ⟨semicolon.token :: a.value.token :: equals.token :: a.key.token :: past, ahead, eof,
          ((CadenceItem.assign a key_ne).diagnostics (scopeOf definitions seen)).reverse ++ reports,
          definitions, seen⟩) := by
  have hcount : countKeys.contains a.key.token.text = true ↔
      a.key.token.text = "variants" ∨ a.key.token.text = "sprints" := by
    simp [countKeys]
  unfold cadenceAssignment
  by_cases he : a.key.token.text = "engine"
  · have hv : a.value.token.kind ∈ TokenKind.engineNames := a.value.kind_mem_of_eq (if_pos he)
    simp [expectEngine, expectMark, expect_of_mem hv, he, cadenceStep, CadenceItem.diagnostics]
  · by_cases hc : a.key.token.text = "variants" ∨ a.key.token.text = "sprints"
    · have hv : a.value.token.kind ∈ [TokenKind.number] :=
        a.value.kind_mem_of_eq ((if_neg he).trans (if_pos hc))
      simp [expectNumber, expectMark, expect_of_mem hv, he, hc, hcount.2 hc, cadenceStep,
        CadenceItem.diagnostics, -List.contains_eq_mem]
    · have hv : a.value.token.kind ∈ TokenKind.values :=
        a.value.kind_mem_of_eq ((if_neg he).trans (if_neg hc))
      have hn : countKeys.contains a.key.token.text = false := by
        simpa using mt hcount.1 hc
      simp [expectValue, expectMark, expect_of_mem hv, he, hc, hn, cadenceStep,
        CadenceItem.diagnostics, -List.contains_eq_mem]

/-- An item of a cadence. -/
lemma cadenceItem_run {a : CadenceItem} {ts : List Token} (h : a.Spells ts) (keys : List String)
    (past rest : List Token) (reports : List Diagnostic) :
    cadenceItem keys ⟨past, ts ++ rest, eof, reports, definitions, seen⟩ =
      (cadenceStep keys a, ⟨ts.reverse ++ past, rest, eof,
        (a.diagnostics (scopeOf definitions seen)).reverse ++ reports, definitions, seen⟩) := by
  cases h with
  | compare keyword joint rubric semicolon =>
    simp [cadenceItem, compareAction, expectKeyword, expectName, expectMark, cadenceStep,
      CadenceItem.diagnostics]
  | keep keyword best limit semicolon =>
    simp [cadenceItem, keepAction, expectKeyword, expectNumber, expectMark, cadenceStep,
      CadenceItem.diagnostics]
  | @assign a _ key_ne h =>
    cases h with
    | mk equals semicolon =>
      have hcompare : a.key.token.isWord "compare" = false := by
        simp [Token.isWord, key_ne.1]
      have hkeep : a.key.token.isWord "keep" = false := by
        simp [Token.isWord, key_ne.2]
      simp [cadenceItem, acceptWord_of_isWord_eq_false hcompare,
        acceptWord_of_isWord_eq_false hkeep, Checker.peek,
        cadenceAssignment_run a key_ne]

/-- A path of a list of source files. -/
lemma sourceFile_run (path : Quoted) (paths : List String) (past rest : List Token)
    (reports : List Diagnostic) :
    sourceFile paths ⟨past, path.token :: rest, eof, reports, definitions, seen⟩ =
      (path.token.text :: paths, ⟨path.token :: past, rest, eof,
        (complain (path.token.text ∈ paths) (.duplicateSourcePath path.token.text)
          path.token).reverse ++ reports, definitions, seen⟩) := by
  by_cases h : path.token.text ∈ paths
  · simp [sourceFile, complain, h]
  · simp [sourceFile, complain, h]

/-- What is said about source files depends on the paths before, in whatever order they are kept. -/
lemma gather_sourceFiles (paths : List Quoted) :
    gather (fun (b : List String) (a : Quoted) => a.token.text :: b)
        (fun b a => complain (a.token.text ∈ b) (.duplicateSourcePath a.token.text) a.token) []
        paths =
      gatherAfter sourceDiagnostics paths := by
  apply gather_congr fun (b : List String) (earlier : List Quoted) =>
    ∀ x, x ∈ b ↔ x ∈ earlier.map fun p => p.token.text
  · intro b earlier h a x
    simp [h x, or_comm]
  · intro b earlier h a
    simp only [sourceDiagnostics, complain, h]
  · simp

/-- What stands behind `from`. -/
lemma origin_run {o : Origin} {ts : List Token} (h : o.Spells ts) :
    origin ⟨past, ts ++ ahead, eof, reports, definitions, seen⟩ =
      ((), ⟨ts.reverse ++ past, ahead, eof, o.diagnostics.reverse ++ reports, definitions,
        seen⟩) := by
  cases h with
  | prompt keyword text =>
    simp [origin, expectLiteral, Origin.diagnostics]
  | @files first more ts keyword opening closing hc =>
    have hrun := listed_run (by decide) (@sourceFile_run eof definitions seen) hc closing ahead []
    rw [gather_sourceFiles] at hrun
    simp [origin, sourceFiles, expectMark, hrun, Origin.diagnostics]

/-- An entry of a `using` list. -/
lemma dependency_run (name : Name) (u : Unit) (past rest : List Token)
    (reports : List Diagnostic) :
    (fun _ => dependency) u ⟨past, name.token :: rest, eof, reports, definitions, seen⟩ =
      ((), ⟨name.token :: past, rest, eof,
        ((scopeOf definitions seen).dangling .artifact .usingList name).reverse ++ reports,
        definitions, seen⟩) := by
  simp [dependency, expectName]

/-- A `using` list behind its keyword. -/
lemma dependencies_run {names : List Name} {ts : List Token} (h : Bracketed names ts) :
    dependencies ⟨past, ts ++ ahead, eof, reports, definitions, seen⟩ =
      ((), ⟨ts.reverse ++ past, ahead, eof,
        (names.flatMap ((scopeOf definitions seen).dangling .artifact .usingList)).reverse ++
          reports, definitions, seen⟩) := by
  cases h with
  | empty opening closing =>
    simp [dependencies, expectMark, listed_apply]
  | filled opening closing hc =>
    have hrun := listed_run (by decide) (@dependency_run eof definitions seen) hc closing ahead ()
    rw [gather_const] at hrun
    simp [dependencies, expectMark, hrun]

/-- The keys of attachments are those that refer to a kind of names. -/
lemma attachmentKind?_eq (key : String) : attachmentKind? key = attachmentKeys.lookup key := by
  unfold attachmentKind? attachmentKeys
  split
  · rfl
  · rfl
  · rfl
  · rfl
  · rename_i h₁ h₂ h₃ h₄
    simp [List.lookup_cons, beq_eq_false_iff_ne.2 h₁, beq_eq_false_iff_ne.2 h₂,
      beq_eq_false_iff_ne.2 h₃, beq_eq_false_iff_ne.2 h₄]

/-- An attachment. -/
lemma attachment_run {a : Assignment attachmentValue} {ts : List Token} (h : a.Spells ts)
    (keys : List String) (past rest : List Token) (reports : List Diagnostic) :
    attachment keys ⟨past, ts ++ rest, eof, reports, definitions, seen⟩ =
      (a.key.token.text :: keys, ⟨ts.reverse ++ past, rest, eof,
        (complain (a.key.token.text ∈ keys) (.duplicateAttachment a.key.token.text) a.key.token ++
          referenceDiagnostics (scopeOf definitions seen) a).reverse ++ reports, definitions,
        seen⟩) := by
  cases h with
  | mk equals semicolon =>
    have hv : a.value.token.kind ∈ [TokenKind.identifier] := a.value.kind_mem
    have hkind := attachmentKind?_eq a.key.token.text
    have hr := fun kind past ahead reports =>
      @resolve_name past ahead eof reports definitions seen kind (.attachment a.key.token.text)
        a.value
    by_cases hk : a.key.token.text ∈ keys <;>
      rcases hl : attachmentKeys.lookup a.key.token.text with _ | kind <;>
      simp [attachment, expectName, expectMark, expect_of_mem hv, hkind, hl, hk, complain, hr,
        referenceDiagnostics]

/-- What is said about attachments depends on the keys before, in whatever order they are kept. -/
lemma gather_attachments (Γ : Scope) (as : List (Assignment attachmentValue)) :
    gather (fun (b : List String) (a : Assignment attachmentValue) => a.key.token.text :: b)
        (fun b a =>
          complain (a.key.token.text ∈ b) (.duplicateAttachment a.key.token.text) a.key.token ++
            referenceDiagnostics Γ a) [] as =
      gatherAfter (attachmentDiagnostics Γ) as := by
  apply gather_congr fun (b : List String) (earlier : List (Assignment attachmentValue)) =>
    ∀ x, x ∈ b ↔ x ∈ earlier.map fun e => e.key.token.text
  · intro b earlier h a x
    simp [h x, or_comm]
  · intro b earlier h a
    simp only [attachmentDiagnostics, complain, h]
  · simp

/-- An assignment starts with its key. -/
lemma assignment_starts {kinds : String → List TokenKind} {a : Assignment kinds} {ts : List Token}
    (h : a.Spells ts) : ∃ t us, ts = t :: us ∧ t.kind = .identifier := by
  cases h with
  | mk equals semicolon => exact ⟨_, _, rfl, a.key.kind_eq⟩

/-- An attachment block behind its keyword. -/
lemma attachments_run {as : List (Assignment attachmentValue)} {ts : List Token}
    (h : Sequence Assignment.Spells as ts) (opening : Punct .openBrace)
    (closing : Punct .closeBrace) :
    attachments ⟨past, opening.token :: (ts ++ closing.token :: ahead), eof, reports, definitions,
        seen⟩ =
      ((), ⟨closing.token :: (ts.reverse ++ opening.token :: past), ahead, eof,
        (gatherAfter (attachmentDiagnostics (scopeOf definitions seen)) as).reverse ++ reports,
        definitions, seen⟩) := by
  have hrun := untilClosed_run h (@attachment_run eof definitions seen) assignment_starts closing
    ahead []
  rw [gather_attachments] at hrun
  simp [attachments, attachmentItems, expectMark, hrun]

end WorkflowLint.Check
