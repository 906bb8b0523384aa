import WorkflowLint.Proofs.Growth

/-!
# Known names

What the tables hold never steers a check: it only decides whether a reference is resolved and
whether a definition is a repetition. So two checks of the same tokens, of which one knows all names
that the other knows, take the same turns. The one that knows more misses no more references and
finds no fewer repetitions, and it still knows more in the end, although it rejects definitions that
the other enters.

## Main definitions

* `WorkflowLint.Finding.isUnresolved`, `WorkflowLint.Finding.isRepetition` — the findings that
  depend on what is known.
* `WorkflowLint.Checker.KnownIn` — what one state knows, another one at the same place knows, too.
* `WorkflowLint.Complaint` — a finding, and the place of the token that it is about.
* `WorkflowLint.Complaints` — how the reports of the two checks go together.
* `WorkflowLint.knowing` — the two checks as a coupling.

## Main results

* `WorkflowLint.Check.complaints_finish` — what the two checks report, side by side.
* `WorkflowLint.Check.more_known` — to know more names is monotone.
-/

set_option autoImplicit false

namespace WorkflowLint

/-! ## Findings that depend on what is known -/

namespace Finding

/-- Is this a reference to a name that is not known? -/
def isUnresolved : Finding → Bool
  | unresolved _ _ _ => true
  | _ => false

/-- Is this a repetition, of a name or of the `juliet` block? -/
def isRepetition : Finding → Bool
  | duplicateDefinition _ _ | duplicateJuliet => true
  | _ => false

/-- No reference is a repetition. -/
lemma isRepetition_eq_false {f : Finding} (h : f.isUnresolved = true) :
    f.isRepetition = false := by
  cases f with
  | unresolved kind name site => rfl
  | _ => exact Bool.noConfusion h

end Finding

/-! ## States that know more -/

/-- The state `s'` is at the same place of the same tokens as `s`, and it knows all that `s` knows:
each space holds every name that it holds in `s`, and a `juliet` block has been met if one has been
met in `s`. -/
structure Checker.KnownIn (s s' : Checker) : Prop where
  past : s.past = s'.past
  ahead : s.ahead = s'.ahead
  eof : s.eof = s'.eof
  names : ∀ kind name, s.isDefined kind name = true → s'.isDefined kind name = true
  juliet : s.julietSeen = true → s'.julietSeen = true

namespace Checker

/-- The state that knows one more name. -/
def enter (s : Checker) (kind : SymbolKind) (name : Token) : Checker :=
  { s with definitions := ⟨kind, name⟩ :: s.definitions }

lemma isDefined_enter (s : Checker) (kind kind' : SymbolKind) (name : Token) (text : String) :
    (s.enter kind name).isDefined kind' text =
      (kind == kind' && name.text == text || s.isDefined kind' text) := rfl

namespace KnownIn

variable {s s' : Checker}

lemma skip (h : s.KnownIn s') : s.skip.KnownIn s'.skip := by
  obtain ⟨past, ahead, eof, reports, definitions, seen⟩ := s
  obtain ⟨past', ahead', eof', reports', definitions', seen'⟩ := s'
  obtain ⟨rfl, rfl, rfl, hnames, hjuliet⟩ := h
  cases ahead with
  | nil => exact ⟨rfl, rfl, rfl, hnames, hjuliet⟩
  | cons t ts => exact ⟨rfl, rfl, rfl, hnames, hjuliet⟩

/-- A name that both enter is known to both. -/
lemma enter (h : s.KnownIn s') (kind : SymbolKind) (name : Token) :
    (s.enter kind name).KnownIn (s'.enter kind name) := by
  refine ⟨h.past, h.ahead, h.eof, fun kind' text htext => ?_, h.juliet⟩
  rw [isDefined_enter, Bool.or_eq_true] at htext ⊢
  exact htext.imp_right (h.names kind' text)

/-- A name that the second state knows already can be entered in the first alone. -/
lemma enter_left (h : s.KnownIn s') {kind : SymbolKind} {name : Token}
    (hknown : s'.isDefined kind name.text = true) : (s.enter kind name).KnownIn s' := by
  refine ⟨h.past, h.ahead, h.eof, fun kind' text htext => ?_, h.juliet⟩
  rw [isDefined_enter, Bool.or_eq_true, Bool.and_eq_true, beq_iff_eq, beq_iff_eq] at htext
  rcases htext with ⟨rfl, rfl⟩ | htext
  · exact hknown
  · exact h.names kind' text htext

end KnownIn

end Checker

/-! ## Reports side by side -/

/-- A finding, and the place of the token that it is about: how many places it stands behind the
token at hand when the check begins. -/
structure Complaint where
  place : Nat
  finding : Finding
  deriving DecidableEq, Repr

namespace Complaint

/-- The report that makes a complaint, in a check that begins with `start`. -/
def report (start : Checker) (r : Complaint) : Diagnostic :=
  ⟨r.finding, (start.peek r.place).range⟩

def isUnresolved (r : Complaint) : Bool := r.finding.isUnresolved

def isRepetition (r : Complaint) : Bool := r.finding.isRepetition

/-- Does this complaint depend on the names that are known? -/
def isAboutKnown (r : Complaint) : Bool := r.isUnresolved || r.isRepetition

end Complaint

/-- The complaints of two checks, of which the second knows more. The second may resolve a reference
that the first cannot, and it may find a repetition that is the first definition for the other. All
other complaints both make. -/
inductive Complaints : List Complaint → List Complaint → Prop
  | nil : Complaints [] []
  | both {found found' : List Complaint} (r : Complaint) (h : Complaints found found') :
      Complaints (r :: found) (r :: found')
  | unresolved {found found' : List Complaint} {r : Complaint} (hr : r.isUnresolved = true)
      (h : Complaints found found') : Complaints (r :: found) found'
  | repetition {found found' : List Complaint} {r : Complaint} (hr : r.isRepetition = true)
      (h : Complaints found found') : Complaints found (r :: found')

namespace Complaints

variable {found found' : List Complaint}

/-- Both checks make the same complaints that do not depend on names. -/
lemma filter_isAboutKnown (h : Complaints found found') :
    found.filter (fun r => !r.isAboutKnown) = found'.filter (fun r => !r.isAboutKnown) := by
  induction h with
  | nil => rfl
  | both r _ ih => rw [List.filter_cons, List.filter_cons, ih]
  | unresolved hr _ ih => rw [List.filter_cons_of_neg (by simp [Complaint.isAboutKnown, hr]), ih]
  | repetition hr _ ih => rw [List.filter_cons_of_neg (by simp [Complaint.isAboutKnown, hr]), ih]

/-- What the second check cannot resolve, the first cannot. -/
lemma filter_isUnresolved (h : Complaints found found') :
    (found'.filter Complaint.isUnresolved).Sublist (found.filter Complaint.isUnresolved) := by
  induction h with
  | nil => exact .slnil
  | both r _ ih =>
    rw [List.filter_cons, List.filter_cons]
    split
    · exact ih.cons_cons r
    · exact ih
  | unresolved hr _ ih =>
    rw [List.filter_cons_of_pos hr]
    exact ih.cons _
  | @repetition _ _ r hr _ ih =>
    have hnot : ¬ r.isUnresolved = true := fun hunresolved =>
      absurd hr (by rw [Complaint.isRepetition, Finding.isRepetition_eq_false hunresolved]; decide)
    rwa [List.filter_cons_of_neg hnot]

/-- What is a repetition for the first check is one for the second. -/
lemma filter_isRepetition (h : Complaints found found') :
    (found.filter Complaint.isRepetition).Sublist (found'.filter Complaint.isRepetition) := by
  induction h with
  | nil => exact .slnil
  | both r _ ih =>
    rw [List.filter_cons, List.filter_cons]
    split
    · exact ih.cons_cons r
    · exact ih
  | @unresolved _ _ r hr _ ih =>
    have hnot : ¬ r.isRepetition = true := by
      rw [Complaint.isRepetition, Finding.isRepetition_eq_false hr]
      decide
    rwa [List.filter_cons_of_neg hnot]
  | repetition hr _ ih =>
    rw [List.filter_cons_of_pos hr]
    exact ih.cons _

end Complaints

/-! ## The coupling -/

/-- The states `s` and `s'` on the way of two checks, of which the first began with `start` and the
second with `start'`: the second knows more, and the complaints made so far go together. -/
structure Knowing (start start' s s' : Checker) : Prop where
  knownIn : s.KnownIn s'
  ahead : s.ahead <:+ start.ahead
  eof : s.eof = start.eof
  complaints : ∃ found found', Complaints found found' ∧
    s.reports = found.map (Complaint.report start) ++ start.reports ∧
    s'.reports = found'.map (Complaint.report start) ++ start'.reports

/-- The token `t` is among those ahead of `start`, or it is the end. -/
def Checker.Sees (start : Checker) (t : Token) : Prop := ∃ n, start.peek n = t

namespace Knowing

variable {start start' s s' : Checker} {t : Token}

lemma refl (h : start.KnownIn start') : Knowing start start' start start' :=
  ⟨h, List.suffix_rfl, rfl, [], [], .nil, rfl, rfl⟩

lemma sees_of_mem_ahead (h : Knowing start start' s s') (ht : t ∈ s.ahead) : start.Sees t := by
  obtain ⟨n, hn, rfl⟩ := List.getElem_of_mem (h.ahead.subset ht)
  exact ⟨n, by simp [Checker.peek, hn]⟩

lemma sees_eof (h : Knowing start start' s s') : start.Sees s.eof := by
  exact ⟨start.ahead.length, by simp [Checker.peek, h.eof]⟩

lemma skip (h : Knowing start start' s s') : Knowing start start' s.skip s'.skip := by
  obtain ⟨past, ahead, eof, reports, definitions, seen⟩ := s
  obtain ⟨past', ahead', eof', reports', definitions', seen'⟩ := s'
  have hskip := h.knownIn.skip
  obtain rfl : ahead = ahead' := h.knownIn.ahead
  cases ahead with
  | nil => exact h
  | cons t ts => exact ⟨hskip, (List.suffix_cons t ts).trans h.ahead, h.eof, h.complaints⟩

/-- Both checks make the same complaint. -/
lemma report (h : Knowing start start' s s') (ht : start.Sees t) (f : Finding) :
    Knowing start start' (Check.report f t s).2 (Check.report f t s').2 := by
  obtain ⟨n, rfl⟩ := ht
  obtain ⟨found, found', hfound, hreports, hreports'⟩ := h.complaints
  refine ⟨⟨h.knownIn.past, h.knownIn.ahead, h.knownIn.eof, h.knownIn.names, h.knownIn.juliet⟩,
    h.ahead, h.eof, ⟨n, f⟩ :: found, ⟨n, f⟩ :: found', hfound.both _, ?_, ?_⟩
  · rw [Check.report_apply, hreports]
    rfl
  · rw [Check.report_apply, hreports']
    rfl

/-- Only the first check misses a reference. -/
lemma report_left (h : Knowing start start' s s') (ht : start.Sees t) {f : Finding}
    (hf : f.isUnresolved = true) : Knowing start start' (Check.report f t s).2 s' := by
  obtain ⟨n, rfl⟩ := ht
  obtain ⟨found, found', hfound, hreports, hreports'⟩ := h.complaints
  refine ⟨⟨h.knownIn.past, h.knownIn.ahead, h.knownIn.eof, h.knownIn.names, h.knownIn.juliet⟩,
    h.ahead, h.eof, ⟨n, f⟩ :: found, found', .unresolved hf hfound, ?_, hreports'⟩
  rw [Check.report_apply, hreports]
  rfl

/-- Only the second check finds a repetition. -/
lemma report_right (h : Knowing start start' s s') (ht : start.Sees t) {f : Finding}
    (hf : f.isRepetition = true) : Knowing start start' s (Check.report f t s').2 := by
  obtain ⟨n, rfl⟩ := ht
  obtain ⟨found, found', hfound, hreports, hreports'⟩ := h.complaints
  refine ⟨⟨h.knownIn.past, h.knownIn.ahead, h.knownIn.eof, h.knownIn.names, h.knownIn.juliet⟩,
    h.ahead, h.eof, found, ⟨n, f⟩ :: found', .repetition hf hfound, hreports, ?_⟩
  rw [Check.report_apply, hreports']
  rfl

/-- Entering a name. What both know is a repetition for both. What neither knows both enter. What
only the second knows it rejects, and the first enters, so that now both know it. -/
lemma define (h : Knowing start start' s s') (ht : start.Sees t) (kind : SymbolKind) :
    Knowing start start' (Check.define kind t s).2 (Check.define kind t s').2 := by
  rw [Check.define_apply, Check.define_apply]
  by_cases hknown : s.isDefined kind t.text = true
  · rw [if_pos hknown, if_pos (h.knownIn.names kind t.text hknown)]
    exact h.report ht _
  rw [if_neg hknown]
  by_cases hknown' : s'.isDefined kind t.text = true
  · rw [if_pos hknown']
    have hreport := h.report_right ht (f := .duplicateDefinition kind t.text) rfl
    exact ⟨hreport.knownIn.enter_left hknown', h.ahead, h.eof, hreport.complaints⟩
  · rw [if_neg hknown']
    exact ⟨h.knownIn.enter kind t, h.ahead, h.eof, h.complaints⟩

/-- Resolving a reference. -/
lemma resolve (h : Knowing start start' s s') (ht : start.Sees t) (kind : SymbolKind)
    (site : ReferenceSite) :
    Knowing start start' (Check.resolve kind site t s).2 (Check.resolve kind site t s').2 := by
  rw [Check.resolve_apply, Check.resolve_apply]
  by_cases hknown : s.isDefined kind t.text = true
  · rw [if_pos hknown, if_pos (h.knownIn.names kind t.text hknown)]
    exact h
  rw [if_neg hknown]
  by_cases hknown' : s'.isDefined kind t.text = true
  · rw [if_pos hknown']
    exact h.report_left ht rfl
  · rw [if_neg hknown']
    exact h.report ht _

/-- Entering a `juliet` block, which both remember. -/
lemma juliet (h : Knowing start start' s s') (ht : start.Sees t) :
    Knowing start start'
      { (if s.julietSeen then Check.report .duplicateJuliet t s else ((), s)).2 with
        julietSeen := true }
      { (if s'.julietSeen then Check.report .duplicateJuliet t s' else ((), s')).2 with
        julietSeen := true } := by
  -- the flag itself plays no part in what has been reported
  have hseen : ∀ {r r' : Checker}, Knowing start start' r r' →
      Knowing start start' { r with julietSeen := true } { r' with julietSeen := true } :=
    fun hr => ⟨⟨hr.knownIn.past, hr.knownIn.ahead, hr.knownIn.eof, hr.knownIn.names, id⟩, hr.ahead,
      hr.eof, hr.complaints⟩
  apply hseen
  by_cases hmet : s.julietSeen = true
  · rw [if_pos hmet, if_pos (h.knownIn.juliet hmet)]
    exact h.report ht _
  rw [if_neg hmet]
  by_cases hmet' : s'.julietSeen = true
  · rw [if_pos hmet']
    exact h.report_right ht rfl
  · rw [if_neg hmet']
    exact h

end Knowing

/-- The coupling of two checks, of which the second knows more. -/
def knowing (start start' : Checker) : Coupling where
  token t t' := t = t' ∧ start.Sees t
  name := Eq
  literal := Eq
  state := Knowing start start'
  kind_eq h := congrArg Token.kind h.1
  name_text h _ := congrArg Token.text h.1
  number_text h _ := congrArg Token.text h.1
  literal_text h _ := congrArg Token.text h.1
  name_eq_iff := @Eq.congr String
  name_word := @word_refl
  literal_eq_iff := @Eq.congr String
  allBlank_eq := @allBlank_congr
  ahead h := h.knownIn.ahead ▸ List.forall₂_same.2 fun _ ht => ⟨rfl, h.sees_of_mem_ahead ht⟩
  eof h := ⟨h.knownIn.eof, h.sees_eof⟩
  skip h := h.skip
  report := by
    rintro s s' t _ f f' h ⟨rfl, ht⟩ hf
    rw [← hf.eq]
    exact h.report ht f
  define := by
    rintro s s' t _ kind h ⟨rfl, ht⟩ -
    exact h.define ht kind
  resolve := by
    rintro s s' t _ kind site h ⟨rfl, ht⟩ -
    exact h.resolve ht kind site
  juliet := by
    rintro s s' t _ h ⟨rfl, ht⟩
    exact h.juliet ht

namespace Check

/-! ## The main result -/

/-- What two checks report, of which the second knows more, side by side. -/
lemma complaints_finish {s s' : Checker} (h : s.KnownIn s') : Knowing s s' (finish s) (finish s') :=
  finish_coupled (C := knowing s s') (.refl h)

/-- **To know more names is monotone.** Let two checks be at the same place of the same tokens, and
let the second know all names that the first knows, and of a `juliet` block if the first does. Both
are run to the end. There they are at the same place, and the second still knows all that the first
knows. Behind what had been reported before, each has made complaints on tokens of the script, such
that

* those that are neither about an unresolved reference nor about a repetition are the same, in the
  same order;
* every reference that the second cannot resolve is one that the first cannot resolve, on the same
  token; and
* every repetition that the first finds is one that the second finds, on the same token.

**Proof sketch.** The two checks are a coupling. Where names are entered or looked up, the cases are
that both know the name, that only the second does, and that neither does. -/
theorem more_known {s s' : Checker} (h : s.KnownIn s') :
    ∃ found found' : List Complaint,
      (finish s).reported = s.reported ++ found.map (Complaint.report s) ∧
      (finish s').reported = s'.reported ++ found'.map (Complaint.report s) ∧
      found.filter (fun r => !r.isAboutKnown) = found'.filter (fun r => !r.isAboutKnown) ∧
      (found'.filter Complaint.isUnresolved).Sublist (found.filter Complaint.isUnresolved) ∧
      (found.filter Complaint.isRepetition).Sublist (found'.filter Complaint.isRepetition) ∧
      (finish s).index = (finish s').index ∧ (finish s).KnownIn (finish s') := by
  have hfinish := complaints_finish h
  obtain ⟨found, found', hfound, hreports, hreports'⟩ := hfinish.complaints
  refine ⟨found.reverse, found'.reverse, ?_, ?_, ?_, ?_, ?_, ?_, hfinish.knownIn⟩
  · rw [Checker.reported, hreports, List.reverse_append, List.map_reverse]
    rfl
  · rw [Checker.reported, hreports', List.reverse_append, List.map_reverse]
    rfl
  · rw [List.filter_reverse, List.filter_reverse, hfound.filter_isAboutKnown]
  · rw [List.filter_reverse, List.filter_reverse]
    exact hfound.filter_isUnresolved.reverse
  · rw [List.filter_reverse, List.filter_reverse]
    exact hfound.filter_isRepetition.reverse
  · rw [Checker.index, Checker.index, hfinish.knownIn.past]

/-- A script that extends an artifact and defines a policy. To one who knows neither, the artifact
is missing; to one who knows both, the policy is defined twice. -/
theorem more_known_extend_policy :
    let s : Checker := .ofTokenized (tokenize "extend A.rubric with \"x\"; policy P = \"y\";")
    let s' := (s.enter .artifact ⟨.identifier, "A", default⟩).enter .policy
      ⟨.identifier, "P", default⟩
    s.KnownIn s' ∧
      (finish s).reported = [⟨.unresolved .artifact "A" .extendStatement, ⟨⟨0, 7⟩, ⟨0, 8⟩⟩⟩] ∧
      (finish s').reported = [⟨.duplicateDefinition .policy "P", ⟨⟨0, 33⟩, ⟨0, 34⟩⟩⟩] ∧
      (finish s).KnownIn (finish s') := by
  intro s s'
  have hnothing : s.definitions = [] := rfl
  have hknown : s.KnownIn s' := by
    refine ⟨rfl, rfl, rfl, fun kind name hname => ?_, id⟩
    rw [Checker.isDefined, hnothing] at hname
    exact Bool.noConfusion hname
  obtain ⟨-, -, -, -, -, -, -, -, hfinish⟩ := more_known hknown
  exact ⟨hknown, by decide +kernel, by decide +kernel, hfinish⟩

end Check

end WorkflowLint
