import WorkflowLint.Proofs.Growth
import WorkflowLint.Proofs.ReadingOrder
import WorkflowLint.Proofs.Relocation

/-!
# Reports made earlier

A check is handed the reports that were made before it, such as those of the lexer. It never looks
at them: it adds its own behind them and takes the same turns as without. In the end all are listed
by where they start, and reports that start at one place in the order in which they were made, so
those handed in come first there.

## Main definitions

* `WorkflowLint.Checker.withReports` — a state with other reports.
* `WorkflowLint.Diagnostic.startingAt` — the diagnostics that start at a place.

## Main results

* `WorkflowLint.Check.finish_withReports` — other reports make no difference to a check.
* `WorkflowLint.Diagnostic.eq_sort_iff` — the sorted list, in words.
* `WorkflowLint.Check.earlier_reports_merged` — reports made earlier are kept and have no influence.
-/

set_option autoImplicit false

namespace WorkflowLint

/-! ## Other reports -/

/-- The state with the reports `base` in place of its own. -/
def Checker.withReports (s : Checker) (base : List Diagnostic) : Checker :=
  { s with reports := base }

lemma SameToken.eq {t t' : Token} (h : SameToken Eq t t') : t = t' := by
  obtain ⟨hkind, htext, hrange⟩ := h
  cases t
  cases t'
  simp_all

lemma SameReport.eq {d d' : Diagnostic} (h : SameReport Eq d d') : d = d' := by
  obtain ⟨hfinding, hrange⟩ := h
  cases d
  cases d'
  simp_all

/-- Lists that agree one by one are equal. -/
lemma eq_of_forall₂ {α : Type} {R : α → α → Prop} (hR : ∀ {a b}, R a b → a = b) {as bs : List α}
    (h : List.Forall₂ R as bs) : as = bs :=
  List.forall₂_eq_eq_eq ▸ h.imp fun _ _ hab => hR hab

/-- States whose ranges correspond only to themselves differ in their reports and in the tokens
passed. -/
lemma Relocated.eq_withReports {base base' : List Diagnostic} {known : List Definition}
    {s s' : Checker} (h : Relocated Eq base base' known s s') (hpast : s'.past = s.past) :
    ∃ new, s.reports = new ++ base ∧ s' = s.withReports (new ++ base') := by
  obtain ⟨new, new', hnew, hnew', hreports⟩ := h.reports
  obtain ⟨names, names', hnames, hnames', hdefinitions⟩ := h.definitions
  have hahead : s.ahead = s'.ahead := eq_of_forall₂ SameToken.eq h.ahead
  have hsame : names = names' := by
    refine eq_of_forall₂ (fun {d d'} hd => ?_) hdefinitions
    cases d
    cases d'
    exact congrArg₂ Definition.mk hd.1 hd.2.eq
  refine ⟨new, hnew, ?_⟩
  rw [← eq_of_forall₂ SameReport.eq hreports] at hnew'
  rw [← hsame, ← hnames] at hnames'
  have heof := h.eof.eq
  have hseen := h.julietSeen
  cases s'
  simp only at hpast hahead heof hnew' hnames' hseen
  rw [Checker.withReports, hpast, ← hahead, ← heof, hnew', hnames', ← hseen]

namespace Check

/-- **Other reports make no difference to a check.** It makes the same reports on top of them, and
everything else in the state is the same in the end.

**Proof sketch.** The check corresponds to the one with other reports, where every range corresponds
to itself. Both have passed the same tokens, because the same are left. -/
lemma finish_withReports (s : Checker) (base : List Diagnostic) :
    ∃ new, (finish s).reports = new ++ s.reports ∧
      finish (s.withReports base) = (finish s).withReports (new ++ base) := by
  have hself : ∀ t, SameToken Eq t t := fun t => ⟨rfl, rfl, rfl⟩
  have hstart : Relocated Eq s.reports base s.definitions s (s.withReports base) :=
    ⟨List.forall₂_same.2 fun t _ => hself t, hself s.eof, ⟨[], [], rfl, rfl, .nil⟩,
      ⟨[], [], rfl, rfl, .nil⟩, rfl⟩
  have hfinish := finish_relocated hstart
  refine hfinish.eq_withReports ?_
  have hahead := eq_of_forall₂ SameToken.eq hfinish.ahead
  have htokens := (grows_script s).tokens
  have htokens' := (grows_script (s.withReports base)).tokens
  have hpassed : (finish (s.withReports base)).past.reverse ++ (finish s).ahead =
      (finish s).past.reverse ++ (finish s).ahead := by
    rw [hahead]
    exact htokens'.trans (htokens.symm.trans (by rw [← hahead]; rfl))
  exact List.reverse_injective (List.append_cancel_right hpassed)

end Check

/-! ## The sorted list -/

namespace Diagnostic

/-- The diagnostics that start at `p`. -/
def startingAt (p : Position) (ds : List Diagnostic) : List Diagnostic :=
  ds.filter fun d => d.range.start = p

lemma startingAt_append (p : Position) (ds es : List Diagnostic) :
    startingAt p (ds ++ es) = startingAt p ds ++ startingAt p es :=
  List.filter_append ..

lemma filter_sameStart (d : Diagnostic) (ds : List Diagnostic) :
    ds.filter d.sameStart = startingAt d.range.start ds := by
  refine List.filter_congr fun e _ => ?_
  rw [Bool.eq_iff_iff, sameStart_iff, decide_eq_true_iff, eq_comm]

/-- The sort keeps the order of diagnostics that start at one place. -/
lemma startingAt_sort (p : Position) (ds : List Diagnostic) :
    startingAt p (sort ds) = startingAt p ds := by
  have hfilter := filter_sort ⟨.duplicateJuliet, ⟨p, p⟩⟩ ds
  rwa [filter_sameStart, filter_sameStart] at hfilter

/-- **The sorted list, in words.** It has the same diagnostics, in reading order of their starts,
and those that start at one place in the given order. -/
lemma eq_sort_iff {ds es : List Diagnostic} :
    es = sort ds ↔ List.Perm es ds ∧
      es.Pairwise (fun d e => d.range.start.le e.range.start = true) ∧
      ∀ p, startingAt p es = startingAt p ds := by
  constructor
  · rintro rfl
    exact ⟨sort_perm ds, sort_pairwise ds, fun p => startingAt_sort p ds⟩
  · rintro ⟨hperm, hsorted, hstarts⟩
    refine eq_sort_of_perm hperm hsorted fun d => ?_
    rw [filter_sameStart, filter_sameStart, hstarts]

/-- A list that is sorted stays as it is. -/
lemma sort_sort (ds : List Diagnostic) : sort (sort ds) = sort ds :=
  List.mergeSort_of_pairwise (sort_pairwise ds)

end Diagnostic

/-! ## The main result -/

/-- **Reports made earlier are kept and have no influence.** A check of any tokens that is handed
`earlier` ends with these and, behind them, exactly what it reports when it is handed nothing; the
cursor, the tables and the `juliet` flag are the same.

What it answers is the only list that has all of these reports, in reading order of their starts,
and those that start at one place in the order in which they were made: first those of `earlier`,
then its own. To sort the answer once more changes nothing.

**Proof sketch.** Other reports make no difference to a check (`finish_withReports`). A list in
reading order is determined by its parts that start at one place (`Diagnostic.eq_sort_iff`). -/
theorem Check.earlier_reports_merged (tokens : List Token) (eof : Token)
    (earlier : List Diagnostic) :
    let own := finish (.start tokens eof [])
    let final := finish (.start tokens eof earlier)
    final.reported = earlier ++ own.reported ∧ final.index = own.index ∧
      (∀ kind, final.table kind = own.table kind) ∧ final.julietSeen = own.julietSeen ∧
      (Move.run .script (.start tokens eof earlier)).1 = .diagnostics final.diagnostics ∧
      (∀ ds, ds = final.diagnostics ↔ List.Perm ds final.reported ∧
        ds.Pairwise (fun d e => d.range.start.le e.range.start = true) ∧
        ∀ p, Diagnostic.startingAt p ds = Diagnostic.startingAt p final.reported) ∧
      (∀ p, Diagnostic.startingAt p final.diagnostics =
        Diagnostic.startingAt p earlier ++ Diagnostic.startingAt p own.reported) ∧
      Diagnostic.sort final.diagnostics = final.diagnostics := by
  intro own final
  obtain ⟨new, hnew, hfinal⟩ :=
    finish_withReports (.start tokens eof []) earlier.reverse
  replace hnew : own.reports = new := hnew.trans (List.append_nil new)
  replace hfinal : final = own.withReports (new ++ earlier.reverse) := hfinal
  have hreported : final.reported = earlier ++ own.reported := by
    rw [hfinal, Checker.reported, Checker.reported, hnew, Checker.withReports, List.reverse_append,
      List.reverse_reverse]
  refine ⟨hreported, ?_, fun kind => ?_, ?_, rfl, fun ds => Diagnostic.eq_sort_iff, fun p => ?_,
    Diagnostic.sort_sort _⟩
  · rw [hfinal]
    rfl
  · rw [hfinal]
    rfl
  · rw [hfinal]
    rfl
  · rw [Checker.diagnostics, Diagnostic.startingAt_sort, hreported, Diagnostic.startingAt_append]

end WorkflowLint
