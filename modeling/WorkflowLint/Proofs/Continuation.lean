import WorkflowLint.Lint
import WorkflowLint.Proofs.Acceptance
import WorkflowLint.Proofs.ReadingOrder
import WorkflowLint.Proofs.Relocation
import WorkflowLint.Proofs.Restart

/-!
# Scripts that go on

Text that is appended behind a script without errors does not disturb it. The script is read as
before, because reading restarts at a line break. It is checked as before, because it is
grammatical: a check that passes a statement never looks at what stands behind it. And its
diagnostics are listed first, because all others start further down.

## Main definitions

* `WorkflowLint.Checker.resume` — a check that goes on with another script.

## Main results

* `WorkflowLint.exists_spelled_of_no_error` — a script without errors is grammatical.
* `WorkflowLint.lint_append_line` — what is found in a script that goes on.
-/

set_option autoImplicit false

namespace WorkflowLint

open Grammar

/-- A check of the script `t` that knows the names which the check `s` has met. -/
def Checker.resume (s : Checker) (t : Tokenized) : Checker :=
  { Checker.ofTokenized t with definitions := s.definitions, julietSeen := s.julietSeen }

/-! ## Scripts without errors -/

lemma mem_lint_iff {script : String} {d : Diagnostic} :
    d ∈ lint script ↔ d ∈ (Check.finish (.ofTokenized (tokenize script))).reports := by
  rw [lint, Checker.diagnostics, (Diagnostic.sort_perm _).mem_iff, Checker.reported,
    List.mem_reverse]

/-- What is reported about a script starts on one of its lines. -/
lemma line_of_mem_reported {script : String} {d : Diagnostic}
    (hd : d ∈ (Check.finish (.ofTokenized (tokenize script))).reported) :
    0 ≤ d.range.start.line ∧ d.range.start.line ≤ newlines script := by
  have heof : 0 ≤ (tokenize script).eof.range.start.line ∧
      (tokenize script).eof.range.start.line ≤ newlines script := by
    rw [line_eof]
    exact ⟨Int.natCast_nonneg _, Int.le_refl _⟩
  obtain ⟨reports, hreports, hranges⟩ := Check.range_of_mem_finish
    (p := fun r => 0 ≤ r.start.line ∧ r.start.line ≤ newlines script)
    (s := .ofTokenized (tokenize script)) (fun t ht => line_of_mem_tokens ht) heof
  rw [Checker.reported, List.mem_reverse, hreports, List.mem_append] at hd
  rcases hd with hd | hd
  · exact hranges d hd
  · exact line_of_mem_diagnostics (List.mem_reverse.1 hd)

section NoError

variable {a : String} (h : ∀ d ∈ lint a, d.severity ≠ .error)

include h

/-- A script without errors has no lexical diagnostics. -/
lemma diagnostics_eq_nil_of_no_error : (tokenize a).diagnostics = [] := by
  rw [List.eq_nil_iff_forall_not_mem]
  intro d hd
  obtain ⟨new, hnew, -⟩ := Check.range_of_mem_finish (p := fun _ => True)
    (s := .ofTokenized (tokenize a)) (fun _ _ => trivial) trivial
  have hmem : d ∈ (Check.finish (.ofTokenized (tokenize a))).reports := by
    rw [hnew]
    exact List.mem_append_right _ (List.mem_reverse.2 hd)
  exact h d (mem_lint_iff.2 hmem) (severity_of_mem_diagnostics hd)

/-- **A script without errors is grammatical.** -/
lemma exists_spelled_of_no_error : ∃ sc : Script, sc.Spells (tokenize a).tokens := by
  refine (Check.spells_of_clean (s := .ofTokenized (tokenize a)) rfl).2 ?_
  intro d hd what hwhat
  apply h d (mem_lint_iff.2 hd)
  rw [Diagnostic.severity, hwhat]
  rfl

end NoError

/-! ## Moving the reports of a check -/

/-- Ranges on lines of a script correspond to those so many lines further down. -/
def Further (n : Int) (r r' : Range) : Prop := r' = r.shift n ∧ 0 ≤ r.start.line

/-- Tokens that start on a line of a script correspond to those further down. -/
lemma forall₂_shift {n : Int} {ts : List Token} (h : ∀ t ∈ ts, 0 ≤ t.range.start.line) :
    List.Forall₂ (SameToken (Further n)) ts (ts.map (Token.shift n)) := by
  rw [List.forall₂_map_right_iff, List.forall₂_same]
  exact fun t ht => ⟨rfl, rfl, rfl, h t ht⟩

/-- Reports that correspond to others further down. -/
lemma eq_shift_of_forall₂ {n : Int} {ds ds' : List Diagnostic}
    (h : List.Forall₂ (SameReport (Further n)) ds ds') :
    ds' = ds.map (Diagnostic.shift n) ∧ ∀ d ∈ ds, 0 ≤ d.range.start.line := by
  induction h with
  | nil => simp
  | @cons d d' ds ds' hd _ ih =>
    obtain ⟨hfinding, hrange, hline⟩ := hd
    refine ⟨?_, List.forall_mem_cons.2 ⟨hline, ih.2⟩⟩
    rw [List.map_cons, ← ih.1]
    congr 1
    cases d'
    simp only at hfinding hrange
    rw [← hfinding, hrange]
    rfl

/-- What is moved behind a line starts behind it. -/
lemma line_of_mem_shift {n : Int} {ds : List Diagnostic} (h : ∀ d ∈ ds, 0 ≤ d.range.start.line) :
    ∀ d ∈ ds.map (Diagnostic.shift (n + 1)), n < d.range.start.line := by
  intro d hd
  obtain ⟨e, he, rfl⟩ := List.mem_map.1 hd
  have hline := h e he
  simp only [Diagnostic.shift, Range.shift, Position.shift]
  omega

/-- **Diagnostics further down are sorted alike.** -/
lemma sort_shift (n : Int) (ds : List Diagnostic) :
    Diagnostic.sort (ds.map (Diagnostic.shift n)) =
      (Diagnostic.sort ds).map (Diagnostic.shift n) := by
  symm
  apply List.map_mergeSort
  intro d _ e _
  rw [Bool.eq_iff_iff, Diagnostic.startsBy, Diagnostic.startsBy, Position.le_iff,
    Position.le_iff]
  simp only [Diagnostic.shift, Range.shift, Position.shift]
  omega

/-! ## The check of a script that goes on -/

/-- **What is reported in a script that goes on.** Behind tokens that spell a script, the check goes
on with further tokens as if they were all there is, but for the names it knows.

**Proof sketch.** By the simulation, the check passes the tokens of the script and reports what it
did without the others. From there on it corresponds to the check of the others, so many lines up:
the flag and the names are the same, and the reports made before play no part. -/
lemma reported_continue {sc : Script} {ts : List Token} (hsc : sc.Spells ts) (eof : Token) (n : Int)
    (t : Tokenized) (htokens : ∀ u ∈ t.tokens, 0 ≤ u.range.start.line)
    (heof : 0 ≤ t.eof.range.start.line) :
    ∃ new, (∀ d ∈ new, 0 ≤ d.range.start.line) ∧
      (Check.finish ((Check.finish (.start ts eof [])).resume t)).reported =
        t.diagnostics ++ new ∧
      (Check.finish (.start (ts ++ t.tokens.map (Token.shift n)) (t.eof.shift n)
          (t.diagnostics.map (Diagnostic.shift n)))).reported =
        t.diagnostics.map (Diagnostic.shift n) ++ (Check.finish (.start ts eof [])).reported ++
          new.map (Diagnostic.shift n) := by
  have hdone := @Check.finish_of_spells [] eof [] [] false sc ts hsc
  have hrun := @Check.script_run (t.tokens.map (Token.shift n)) (t.eof.shift n) sc ts hsc []
    (t.diagnostics.map (Diagnostic.shift n)).reverse [] false
  generalize hA : sc.diagnostics (scopeOf [] false) = A at hdone hrun
  generalize hD : sc.foldl Statement.enter [] = D at hdone hrun
  generalize hJ : (sc.scope (scopeOf [] false)).julietSeen = J at hdone hrun
  have hstart : Checker.start ts eof [] = ⟨[], ts, eof, [], [], false⟩ := rfl
  rw [hstart, hdone]
  have hrelocated : Relocated (Further n) t.diagnostics.reverse
      (A.reverse ++ (t.diagnostics.map (Diagnostic.shift n)).reverse) D
      ⟨[], t.tokens, t.eof, t.diagnostics.reverse, D, J⟩
      ⟨ts.reverse ++ [], t.tokens.map (Token.shift n), t.eof.shift n,
        A.reverse ++ (t.diagnostics.map (Diagnostic.shift n)).reverse, D, J⟩ :=
    ⟨forall₂_shift htokens, ⟨rfl, rfl, rfl, heof⟩, ⟨[], [], rfl, rfl, .nil⟩,
      ⟨[], [], rfl, rfl, .nil⟩, rfl⟩
  obtain ⟨new, new', hnew, hnew', hsame⟩ := (Check.finish_relocated hrelocated).reports
  obtain ⟨rfl, hlines⟩ := eq_shift_of_forall₂ hsame
  refine ⟨new.reverse, fun d hd => hlines d (List.mem_reverse.1 hd), ?_, ?_⟩
  · have hresume : Checker.resume ⟨ts.reverse ++ [], [], eof, A.reverse ++ [], D, J⟩ t =
        ⟨[], t.tokens, t.eof, t.diagnostics.reverse, D, J⟩ := rfl
    rw [hresume, Checker.reported, hnew]
    simp
  · have hgo : Check.finish (.start (ts ++ t.tokens.map (Token.shift n)) (t.eof.shift n)
          (t.diagnostics.map (Diagnostic.shift n))) =
        Check.finish ⟨ts.reverse ++ [], t.tokens.map (Token.shift n), t.eof.shift n,
          A.reverse ++ (t.diagnostics.map (Diagnostic.shift n)).reverse, D, J⟩ :=
      congrArg Prod.snd hrun
    rw [hgo, Checker.reported, Checker.reported, hnew']
    simp

/-- **Text behind a script without errors does not disturb it.** The diagnostics of `a`, a line feed
and `b` are those of `a`, and behind them those of a check of `b` that knows the names which the
check of `a` has met, as many lines further down as `a` and the line feed take. In particular those
of `a` come first.

**Proof sketch.** The script `a` has no lexical diagnostics, so reading restarts behind it; it is
grammatical, so the check goes on behind it. What is reported about `a` starts on its lines, and
what is reported about `b` further down, so the sort keeps them apart. -/
theorem lint_append_line (a b : String) (h : ∀ d ∈ lint a, d.severity ≠ .error) :
    lint (a ++ "\n" ++ b) =
        lint a ++ ((Check.finish ((Check.finish (.ofTokenized (tokenize a))).resume
          (tokenize b))).diagnostics.map (Diagnostic.shift (newlines a + 1))) ∧
      lint a <+: lint (a ++ "\n" ++ b) := by
  obtain ⟨sc, hsc⟩ := exists_spelled_of_no_error h
  have hlexical := diagnostics_eq_nil_of_no_error h
  have hclosed : (tokenize a).Closed := by
    intro d hd
    rw [hlexical] at hd
    cases hd
  obtain ⟨htokens, hdiagnostics, heof⟩ := contents_tokenize_append hclosed b
  rw [hlexical, List.nil_append] at hdiagnostics
  have hstart : Checker.ofTokenized (tokenize a) =
      .start (tokenize a).tokens (tokenize a).eof [] := by
    rw [Checker.ofTokenized, hlexical]
  have hline : 0 ≤ (tokenize b).eof.range.start.line := by
    rw [line_eof]
    exact Int.natCast_nonneg _
  obtain ⟨new, hnew, hresume, hreported⟩ := reported_continue hsc (tokenize a).eof
    (newlines a + 1) (tokenize b) (fun t ht => (line_of_mem_tokens ht).1) hline
  -- the sort keeps the two parts apart: `b` starts behind the lines that `a` has
  have hlow : ∀ d ∈ (Check.finish (.start (tokenize a).tokens (tokenize a).eof [])).reported,
      d.range.start.line ≤ newlines a := by
    intro d hd
    rw [← hstart] at hd
    exact (line_of_mem_reported hd).2
  have heq : lint (a ++ "\n" ++ b) =
      lint a ++ ((Check.finish ((Check.finish (.ofTokenized (tokenize a))).resume
        (tokenize b))).diagnostics.map (Diagnostic.shift (newlines a + 1))) := by
    rw [lint, lint, Checker.diagnostics, Checker.ofTokenized, htokens, hdiagnostics, heof,
      hreported, Diagnostic.sort_of_separated hlow
        (line_of_mem_shift fun d hd => (line_of_mem_diagnostics hd).1) (line_of_mem_shift hnew),
      ← List.map_append, sort_shift, hstart, Checker.diagnostics, Checker.diagnostics, hresume]
  exact ⟨heq, heq ▸ List.prefix_append _ _⟩

/-- Behind two `juliet` blocks, which are worth a warning, a third one is worth another. -/
theorem lint_append_juliet :
    (∀ d ∈ lint "juliet \x7b\x7d\njuliet \x7b\x7d", d.severity ≠ .error) ∧
      lint ("juliet \x7b\x7d\njuliet \x7b\x7d" ++ "\n" ++ "juliet \x7b\x7d") =
        [⟨.duplicateJuliet, ⟨⟨1, 0⟩, ⟨1, 6⟩⟩⟩, ⟨.duplicateJuliet, ⟨⟨2, 0⟩, ⟨2, 6⟩⟩⟩] := by
  have hlint : lint "juliet \x7b\x7d\njuliet \x7b\x7d" =
      [⟨.duplicateJuliet, ⟨⟨1, 0⟩, ⟨1, 6⟩⟩⟩] := by decide +kernel
  have hwarning : ∀ d ∈ lint "juliet \x7b\x7d\njuliet \x7b\x7d", d.severity ≠ .error := by
    rw [hlint]
    decide
  refine ⟨hwarning, ?_⟩
  rw [(lint_append_line _ "juliet \x7b\x7d" hwarning).1, hlint]
  decide +kernel

end WorkflowLint
