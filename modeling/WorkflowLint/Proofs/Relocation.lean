import WorkflowLint.Proofs.Coupling

/-!
# Checks of the same tokens at other places

A check never looks at where a token stands: it only copies ranges into its reports. So two checks
of tokens that differ in their ranges alone make the same reports at corresponding ranges. Likewise
the reports that were made before play no part.

## Main definitions

* `WorkflowLint.Relocated` — states of two checks whose ranges correspond.
* `WorkflowLint.relocation` — the coupling of such states.

## Main results

* `WorkflowLint.Check.finish_relocated` — checks of corresponding tokens make corresponding reports.
* `WorkflowLint.Check.range_of_mem_finish` — a check reports on its tokens and on the end only.
-/

set_option autoImplicit false

namespace WorkflowLint

/-- Tokens that differ in their ranges alone. -/
def SameToken (ρ : Range → Range → Prop) (t t' : Token) : Prop :=
  t.kind = t'.kind ∧ t.text = t'.text ∧ ρ t.range t'.range

/-- Diagnostics that differ in their ranges alone. -/
def SameReport (ρ : Range → Range → Prop) (d d' : Diagnostic) : Prop :=
  d.finding = d'.finding ∧ ρ d.range d'.range

/-- The states of two checks whose ranges correspond. In the one, `base` was reported before, in the
other `base'`; in both the names of `known` were defined before. -/
structure Relocated (ρ : Range → Range → Prop) (base base' : List Diagnostic)
    (known : List Definition) (s s' : Checker) : Prop where
  ahead : List.Forall₂ (SameToken ρ) s.ahead s'.ahead
  eof : SameToken ρ s.eof s'.eof
  reports : ∃ new new', s.reports = new ++ base ∧ s'.reports = new' ++ base' ∧
    List.Forall₂ (SameReport ρ) new new'
  definitions : ∃ new new', s.definitions = new ++ known ∧ s'.definitions = new' ++ known ∧
    List.Forall₂ (fun d d' => d.kind = d'.kind ∧ SameToken ρ d.token d'.token) new new'
  julietSeen : s.julietSeen = s'.julietSeen

namespace Relocated

variable {ρ : Range → Range → Prop} {base base' : List Diagnostic} {known : List Definition}
  {s s' : Checker}

/-- Names are defined alike. -/
lemma isDefined_eq (h : Relocated ρ base base' known s s') (kind : SymbolKind) (name : String) :
    s.isDefined kind name = s'.isDefined kind name := by
  obtain ⟨new, new', hnew, hnew', hsame⟩ := h.definitions
  rw [Checker.isDefined, Checker.isDefined, hnew, hnew', List.any_append, List.any_append]
  congr 1
  clear hnew hnew'
  induction hsame with
  | nil => rfl
  | cons hd _ ih => rw [List.any_cons, List.any_cons, ih, hd.1, hd.2.2.1]

/-- The same finding about the same token is reported at corresponding ranges. -/
lemma report (h : Relocated ρ base base' known s s') {t t' : Token} (ht : SameToken ρ t t')
    (f : Finding) :
    Relocated ρ base base' known (Check.report f t s).2 (Check.report f t' s').2 where
  ahead := h.ahead
  eof := h.eof
  reports := by
    obtain ⟨new, new', hnew, hnew', hsame⟩ := h.reports
    refine ⟨⟨f, t.range⟩ :: new, ⟨f, t'.range⟩ :: new', ?_, ?_, .cons ⟨rfl, ht.2.2⟩ hsame⟩
    · rw [Check.report_apply, hnew, List.cons_append]
    · rw [Check.report_apply, hnew', List.cons_append]
  definitions := h.definitions
  julietSeen := h.julietSeen

/-- Passing a token. -/
lemma skip (h : Relocated ρ base base' known s s') :
    Relocated ρ base base' known s.skip s'.skip := by
  obtain ⟨past, ahead, eof, reports, definitions, seen⟩ := s
  obtain ⟨past', ahead', eof', reports', definitions', seen'⟩ := s'
  obtain ⟨hahead, heof, hreports, hdefinitions, hseen⟩ := h
  cases hahead with
  | nil => exact ⟨.nil, heof, hreports, hdefinitions, hseen⟩
  | cons ht hts => exact ⟨hts, heof, hreports, hdefinitions, hseen⟩

/-- Entering a name. -/
lemma define (h : Relocated ρ base base' known s s') {t t' : Token} (ht : SameToken ρ t t')
    (kind : SymbolKind) :
    Relocated ρ base base' known (Check.define kind t s).2 (Check.define kind t' s').2 := by
  rw [Check.define_apply, Check.define_apply, ← ht.2.1, ← h.isDefined_eq]
  split
  · exact h.report ht _
  · refine ⟨h.ahead, h.eof, h.reports, ?_, h.julietSeen⟩
    obtain ⟨new, new', hnew, hnew', hsame⟩ := h.definitions
    refine ⟨⟨kind, t⟩ :: new, ⟨kind, t'⟩ :: new', ?_, ?_, .cons ⟨rfl, ht⟩ hsame⟩
    · rw [hnew, List.cons_append]
    · rw [hnew', List.cons_append]

/-- Resolving a reference. -/
lemma resolve (h : Relocated ρ base base' known s s') {t t' : Token} (ht : SameToken ρ t t')
    (kind : SymbolKind) (site : ReferenceSite) :
    Relocated ρ base base' known (Check.resolve kind site t s).2
      (Check.resolve kind site t' s').2 := by
  rw [Check.resolve_apply, Check.resolve_apply, ← ht.2.1, ← h.isDefined_eq]
  split
  · exact h
  · exact h.report ht _

/-- Entering a `juliet` block. -/
lemma juliet (h : Relocated ρ base base' known s s') {t t' : Token} (ht : SameToken ρ t t') :
    Relocated ρ base base' known
      { (if s.julietSeen then Check.report .duplicateJuliet t s else ((), s)).2 with
        julietSeen := true }
      { (if s'.julietSeen then Check.report .duplicateJuliet t' s' else ((), s')).2 with
        julietSeen := true } := by
  rw [← h.julietSeen]
  split
  · have hr := h.report ht .duplicateJuliet
    exact ⟨hr.ahead, hr.eof, hr.reports, hr.definitions, rfl⟩
  · exact ⟨h.ahead, h.eof, h.reports, h.definitions, rfl⟩

end Relocated

/-- The coupling of checks whose ranges correspond. -/
def relocation (ρ : Range → Range → Prop) (base base' : List Diagnostic)
    (known : List Definition) : Coupling where
  token := SameToken ρ
  name := Eq
  literal := Eq
  state := Relocated ρ base base' known
  kind_eq h := h.1
  name_text h _ := h.2.1
  number_text h _ := h.2.1
  literal_text h _ := h.2.1
  name_eq_iff := by
    rintro x _ y _ rfl rfl
    exact Iff.rfl
  name_word _ := rfl
  literal_eq_iff := by
    rintro x _ y _ rfl rfl
    exact Iff.rfl
  allBlank_eq h := by rw [h]
  ahead h := h.ahead
  eof h := h.eof
  skip h := h.skip
  report h ht hf := hf.eq ▸ h.report ht _
  define kind h ht _ := h.define ht kind
  resolve kind site h ht _ := h.resolve ht kind site
  juliet h ht := h.juliet ht

namespace Check

/-- **Checks of corresponding tokens make corresponding reports.** -/
lemma finish_relocated {ρ : Range → Range → Prop} {base base' : List Diagnostic}
    {known : List Definition} {s s' : Checker} (h : Relocated ρ base base' known s s') :
    Relocated ρ base base' known (finish s) (finish s') :=
  finish_coupled (C := relocation ρ base base' known) h

/-- **A check reports on its tokens and on the end only.** What is true of their ranges is true of
the ranges of all new reports.

**Proof sketch.** The check corresponds to itself, if ranges correspond to themselves where the
property holds. -/
lemma range_of_mem_finish {p : Range → Prop} {s : Checker} (hahead : ∀ t ∈ s.ahead, p t.range)
    (heof : p s.eof.range) :
    ∃ new, (finish s).reports = new ++ s.reports ∧ ∀ d ∈ new, p d.range := by
  have hsame : ∀ ts : List Token, (∀ t ∈ ts, p t.range) →
      List.Forall₂ (SameToken fun r r' => r = r' ∧ p r) ts ts := by
    intro ts hts
    rw [List.forall₂_same]
    exact fun t ht => ⟨rfl, rfl, rfl, hts t ht⟩
  have hstart : Relocated (fun r r' => r = r' ∧ p r) s.reports s.reports s.definitions s s :=
    ⟨hsame _ hahead, ⟨rfl, rfl, rfl, heof⟩, ⟨[], [], rfl, rfl, .nil⟩, ⟨[], [], rfl, rfl, .nil⟩,
      rfl⟩
  obtain ⟨new, new', hnew, -, hrelated⟩ := (finish_relocated hstart).reports
  refine ⟨new, hnew, ?_⟩
  clear hnew
  induction hrelated with
  | nil => simp
  | cons hd _ ih => exact List.forall_mem_cons.2 ⟨hd.2.2, ih⟩

end Check

end WorkflowLint
