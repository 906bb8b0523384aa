import WorkflowLint.Proofs.Coupling.Basic
import WorkflowLint.Proofs.Simulation.Items

/-!
# Coupled scripts

The checks of items, statements and scripts keep every coupling. The answers that are passed along
inside a statement, such as the criteria of a rubric, are similar item by item.

## Main results

* `WorkflowLint.Check.coupled_statement` — statements keep a coupling.
* `WorkflowLint.Check.coupled_script` — so do scripts.
* `WorkflowLint.Check.finish_coupled` — states that go together lead to states that go together.
-/

set_option autoImplicit false

namespace WorkflowLint

open Grammar

/-! ## Similar texts -/

namespace Coupling

variable {C : Coupling} {t t' : Token}

lemma leaf.name (h : C.leaf [.identifier] t t') : C.name t.text t'.text :=
  C.name_text h.1 (List.mem_singleton.1 h.2)

lemma leaf.literal (h : C.leaf TokenKind.literals t t') : C.literal t.text t'.text :=
  C.literal_text h.1 h.2

lemma beq_word_iff {x x' w : String} (h : C.name x x') (hw : w ∈ words) :
    (x == w) = true ↔ (x' == w) = true := by
  rw [beq_iff_eq, beq_iff_eq]
  exact eq_word_iff h hw

/-- Texts that are told apart alike are found alike. -/
lemma contains_iff {R : String → String → Prop}
    (hR : ∀ {x x' y y'}, R x x' → R y y' → (x = y ↔ x' = y')) {x x' : String} (hx : R x x')
    {l l' : List String} (h : List.Forall₂ R l l') :
    l.contains x = true ↔ l'.contains x' = true := by
  induction h with
  | nil => exact Iff.rfl
  | cons hy _ ih =>
    rw [List.contains_cons, List.contains_cons, Bool.or_eq_true, Bool.or_eq_true, beq_iff_eq,
      beq_iff_eq, hR hx hy, ih]

/-- Similar names are count keys alike. -/
lemma countKeys_iff {x x' : String} (h : C.name x x') :
    Check.countKeys.contains x = true ↔ Check.countKeys.contains x' = true := by
  refine contains_iff C.name_eq_iff h ?_
  exact .cons (C.name_word (by decide)) (.cons (C.name_word (by decide)) .nil)

/-- A count key is one of the words. -/
lemma mem_words_of_countKeys {x : String} (h : Check.countKeys.contains x = true) :
    x ∈ words := by
  have hx : x = "variants" ∨ x = "sprints" := by simpa [Check.countKeys] using h
  rcases hx with rfl | rfl
  · decide
  · decide

/-- An attachment key is one of the words. -/
lemma mem_words_of_attachmentKind? {x : String} {kind : SymbolKind}
    (h : Check.attachmentKind? x = some kind) : x ∈ words := by
  unfold Check.attachmentKind? at h
  split at h
  · decide
  · decide
  · decide
  · decide
  · cases h

/-- Similar names are attachment keys of the same kind. -/
lemma attachmentKind?_congr {x x' : String} (h : C.name x x') :
    Check.attachmentKind? x = Check.attachmentKind? x' := by
  have hbeq : ∀ w ∈ words, (x == w) = (x' == w) := by
    intro w hw
    rw [Bool.eq_iff_iff]
    exact beq_word_iff h hw
  rw [Check.attachmentKind?_eq, Check.attachmentKind?_eq]
  simp only [attachmentKeys, List.lookup_cons, hbeq _ (by decide : "preflight" ∈ words),
    hbeq _ (by decide : "failureTriage" ∈ words), hbeq _ (by decide : "cadence" ∈ words),
    hbeq _ (by decide : "rubric" ∈ words), List.lookup_nil]

end Coupling

namespace Check

variable {C : Coupling}

open Coupling

/-! ## Items -/

/-- An assignment in a `juliet` block. -/
lemma coupled_julietItem : Coupled C julietItem julietItem fun _ _ => True := by
  unfold julietItem
  refine (coupled_expect _ _).bind fun _ _ hkey => ?_
  cases hkey with
  | none => exact coupled_recoverInBlock
  | @some key key' hkey =>
    have hengine := beq_word_iff hkey.name (by decide : "engine" ∈ words)
    refine coupled_unless hengine (coupled_report hkey.1 (.unknownJulietKey hkey.name)) ?_
    refine (coupled_expectMark _ _).bind fun _ _ _ => ?_
    refine coupled_ite hengine (fun _ _ => ?_) fun _ _ => ?_
    · refine (coupled_expect _ _).discard.bind fun _ _ _ => ?_
      exact coupled_expectMark _ _
    · refine (coupled_expect _ _).discard.bind fun _ _ _ => ?_
      exact coupled_expectMark _ _

/-- Similar bodies of rubrics. -/
structure SimilarBody (C : Coupling) (body body' : RubricBody) : Prop where
  criteria : List.Forall₂ C.literal body.criteria body'.criteria
  tiebreakers : List.Forall₂ (C.leaf TokenKind.literals) body.tiebreakers body'.tiebreakers

/-- Similar labels of criteria are entered alike. -/
lemma SimilarBody.enter {body body' : RubricBody} (h : SimilarBody C body body')
    {label label' : Option Token} (hlabel : Option.Rel (C.leaf TokenKind.literals) label label') :
    SimilarBody C (body.enter label) (body'.enter label') := by
  cases hlabel with
  | none => exact h
  | some hl => exact ⟨.cons hl.literal h.criteria, h.tiebreakers⟩

/-- A criterion, behind its keyword. -/
lemma coupled_criterion {body body' : RubricBody} (h : SimilarBody C body body') :
    Coupled C (criterion body) (criterion body') (SimilarBody C) := by
  unfold criterion
  refine (coupled_expect _ _).bind fun label label' hlabel => ?_
  have hbehind : Coupled C
      (expectMark .semicolon "';' after criterion definition" >>= fun _ =>
        pure (body.enter label))
      (expectMark .semicolon "';' after criterion definition" >>= fun _ =>
        pure (body'.enter label'))
      (SimilarBody C) :=
    (coupled_expectMark _ _).bind fun _ _ _ => coupled_pure (h.enter hlabel)
  refine (coupled_expectKeyword (by decide) _).bind fun _ _ _ => ?_
  refine (coupled_expect _ _).bind fun points points' hpoints => ?_
  refine (coupled_requirePositive .nonPositivePoints hpoints).bind fun _ _ _ => ?_
  refine (coupled_acceptWord (by decide)).bind fun given given' hgiven => ?_
  refine coupled_ite (by rw [hgiven]) (fun _ _ => ?_) fun _ _ => hbehind
  refine (coupled_expect _ _).bind fun meaning meaning' hmeaning => ?_
  cases hmeaning with
  | none => exact hbehind
  | some hm =>
    refine coupled_when ?_ (coupled_report hm.1 .emptyMeaning) hbehind
    rw [C.allBlank_eq hm.literal]

/-- A list of tiebreakers, behind its keyword. -/
lemma coupled_tiebreakers {body body' : RubricBody} (h : SimilarBody C body body') :
    Coupled C (tiebreakers body) (tiebreakers body') (SimilarBody C) := by
  unfold tiebreakers
  refine (coupled_expectMark _ _).bind fun _ _ _ => ?_
  refine (coupled_listed (R := SimilarBody C) (fun b b' hb => ?_) h).bind fun b b' hb => ?_
  · unfold tiebreaker
    refine (coupled_expect _ _).bind fun label label' hlabel => ?_
    cases hlabel with
    | none => exact coupled_pure hb
    | some hl =>
      exact coupled_pure ⟨hb.criteria, List.rel_append hb.tiebreakers (.cons hl .nil)⟩
  · refine (coupled_expectMark _ _).bind fun _ _ _ => ?_
    exact (coupled_expectMark _ _).bind fun _ _ _ => coupled_pure hb

/-- An item of a rubric. -/
lemma coupled_rubricItem {body body' : RubricBody} (h : SimilarBody C body body') :
    Coupled C (rubricItem body) (rubricItem body') (SimilarBody C) := by
  unfold rubricItem
  refine (coupled_acceptWord (by decide)).bind fun g g' hg => ?_
  refine coupled_ite (by rw [hg]) (fun _ _ => coupled_criterion h) fun _ _ => ?_
  refine (coupled_acceptWord (by decide)).bind fun g g' hg => ?_
  refine coupled_ite (by rw [hg]) (fun _ _ => coupled_tiebreakers h) fun _ _ => ?_
  refine (coupled_reportCurrent (.expected _)).bind fun _ _ _ => ?_
  exact coupled_recoverInBlock.bind fun _ _ _ => coupled_pure h

/-- A `compare` action, behind its keyword. -/
lemma coupled_compareAction : Coupled C compareAction compareAction fun _ _ => True := by
  unfold compareAction
  refine (coupled_expectKeyword (by decide) _).bind fun _ _ _ => ?_
  refine (coupled_expect _ _).bind fun name name' hname => ?_
  cases hname with
  | none => exact coupled_expectMark _ _
  | some hn => exact (coupled_resolve _ _ hn).bind fun _ _ _ => coupled_expectMark _ _

/-- A `keep` action, behind its keyword. -/
lemma coupled_keepAction : Coupled C keepAction keepAction fun _ _ => True := by
  unfold keepAction
  refine (coupled_expectKeyword (by decide) _).bind fun _ _ _ => ?_
  refine (coupled_expect _ _).bind fun limit limit' hlimit => ?_
  exact (coupled_requirePositive .nonPositiveKeep hlimit).bind fun _ _ _ => coupled_expectMark _ _

/-- An assignment in a cadence, in front of an identifier. -/
lemma coupled_cadenceAssignment {seen seen' : List String} (h : List.Forall₂ C.name seen seen')
    {s s' : Checker} (hs : C.state s s') (hkey : s.current.kind = .identifier) :
    CoupledAt C (cadenceAssignment seen) (cadenceAssignment seen') (List.Forall₂ C.name) s s' := by
  unfold cadenceAssignment
  have hadvance : CoupledAt C advance advance (C.leaf [.identifier]) s s' :=
    ⟨⟨current hs, List.mem_singleton.2 hkey⟩, C.skip hs⟩
  refine hadvance.bind fun key key' hkey => coupled_advance.discard.bind fun _ _ _ => ?_
  have hengine := beq_word_iff hkey.name (by decide : "engine" ∈ words)
  refine coupled_ite hengine (fun _ _ => ?_) fun _ _ => ?_
  · refine (coupled_expect _ _).discard.bind fun _ _ _ => ?_
    exact (coupled_expectMark _ _).bind fun _ _ _ => coupled_pure h
  refine coupled_ite (countKeys_iff hkey.name) (fun hcount _ => ?_) fun _ _ => ?_
  · -- a count key is one of two words, so the messages are the same
    have hword := mem_words_of_countKeys hcount
    rw [eq_of_mem_words hkey.name hword]
    refine (coupled_expect _ _).bind fun value value' hvalue => ?_
    refine (coupled_requirePositive (.nonPositiveCount _) hvalue).bind fun _ _ _ => ?_
    exact (coupled_expectMark _ _).bind fun _ _ _ => coupled_pure (.cons (C.name_word hword) h)
  · refine (coupled_report hkey.1 (.unknownCadenceKey hkey.name)).bind fun _ _ _ => ?_
    refine (coupled_expect _ _).discard.bind fun _ _ _ => ?_
    exact (coupled_expectMark _ _).bind fun _ _ _ => coupled_pure h

/-- An item of a cadence. -/
lemma coupled_cadenceItem {seen seen' : List String} (h : List.Forall₂ C.name seen seen') :
    Coupled C (cadenceItem seen) (cadenceItem seen') (List.Forall₂ C.name) := by
  unfold cadenceItem
  refine (coupled_acceptWord (by decide)).bind fun g g' hg => ?_
  refine coupled_ite (by rw [hg]) (fun _ _ => ?_) fun _ _ => ?_
  · exact coupled_compareAction.bind fun _ _ _ => coupled_pure h
  refine (coupled_acceptWord (by decide)).bind fun g g' hg => ?_
  refine coupled_ite (by rw [hg]) (fun _ _ => ?_) fun _ _ => ?_
  · exact coupled_keepAction.bind fun _ _ _ => coupled_pure h
  refine coupled_get_bind fun s s' hs => coupledAt_ite ?_ (fun hassign _ => ?_) fun _ _ => ?_
  · rw [isAt_eq hs, C.kind_eq (peek hs 1)]
  · rw [Bool.and_eq_true, Checker.isAt] at hassign
    exact coupled_cadenceAssignment h hs (by simpa using hassign.1)
  · refine ((coupled_reportCurrent (.expected _)).bind fun _ _ _ => ?_) s s' hs
    exact coupled_recoverInBlock.bind fun _ _ _ => coupled_pure h

/-- A path in a list of source files. -/
lemma coupled_sourceFile {seen seen' : List String} (h : List.Forall₂ C.literal seen seen') :
    Coupled C (sourceFile seen) (sourceFile seen') (List.Forall₂ C.literal) := by
  unfold sourceFile
  refine (coupled_expect _ _).bind fun path path' hpath => ?_
  cases hpath with
  | none => exact coupled_pure h
  | @some path path' hp =>
    have hliteral : C.literal path.text path'.text := by
      refine C.literal_text hp.1 ?_
      rw [List.mem_singleton.1 hp.2]
      decide
    refine coupled_when (contains_iff C.literal_eq_iff hliteral h) ?_ ?_
    · exact coupled_report hp.1 (.duplicateSourcePath hliteral)
    · exact coupled_pure (.cons hliteral h)

/-- A list of source files, behind its keyword. -/
lemma coupled_sourceFiles
    (hprevious : ∀ {s s'}, C.state s s' → C.token s.previous s'.previous) :
    Coupled C sourceFiles sourceFiles fun _ _ => True := by
  unfold sourceFiles
  refine (coupled_expect _ _).bind fun bracket bracket' hbracket => ?_
  refine (coupled_listed (fun _ _ => coupled_sourceFile) .nil).bind fun seen seen' hseen => ?_
  refine (coupled_expectMark _ _).bind fun _ _ _ => ?_
  have hempty : seen.isEmpty = true ↔ seen'.isEmpty = true := by
    rw [List.isEmpty_iff_length_eq_zero, List.isEmpty_iff_length_eq_zero, hseen.length_eq]
  refine coupled_ite hempty (fun _ _ => ?_) fun _ _ => coupled_pure trivial
  refine coupled_get_bind fun s s' hs => coupled_report ?_ (.expected _) s s' hs
  cases hbracket with
  | none => exact hprevious hs
  | some hb => exact hb.1

/-- What an artifact is made from. -/
lemma coupled_origin (hprevious : ∀ {s s'}, C.state s s' → C.token s.previous s'.previous) :
    Coupled C origin origin fun _ _ => True := by
  unfold origin
  refine (coupled_acceptWord (by decide)).bind fun g g' hg => ?_
  refine coupled_ite (by rw [hg]) (fun _ _ => (coupled_expect _ _).discard) fun _ _ => ?_
  refine (coupled_acceptWord (by decide)).bind fun g g' hg => ?_
  refine coupled_ite (by rw [hg]) (fun _ _ => coupled_sourceFiles hprevious) fun _ _ => ?_
  exact coupled_reportCurrent (.expected _)

/-- A `using` list, behind its keyword. -/
lemma coupled_dependencies : Coupled C dependencies dependencies fun _ _ => True := by
  unfold dependencies
  refine (coupled_expectMark _ _).bind fun _ _ _ => ?_
  refine (coupled_listed (R := fun _ _ => True) (fun _ _ _ => ?_) trivial).bind fun _ _ _ =>
    coupled_expectMark _ _
  unfold dependency
  refine (coupled_expect _ _).bind fun name name' hname => ?_
  cases hname with
  | none => exact coupled_pure trivial
  | some hn => exact coupled_resolve _ _ hn

/-- An attachment. -/
lemma coupled_attachment {seen seen' : List String} (h : List.Forall₂ C.name seen seen') :
    Coupled C (attachment seen) (attachment seen') (List.Forall₂ C.name) := by
  unfold attachment
  refine (coupled_expect _ _).bind fun key key' hkey => ?_
  cases hkey with
  | none => exact coupled_recoverInBlock.bind fun _ _ _ => coupled_pure h
  | @some key key' hk =>
    refine coupled_when (contains_iff C.name_eq_iff hk.name h)
      (coupled_report hk.1 (.duplicateAttachment hk.name)) ?_
    refine (coupled_expectMark _ _).bind fun _ _ _ => ?_
    refine (coupled_expect _ _).bind fun reference reference' hreference => ?_
    refine (coupled_expectMark _ _).bind fun _ _ _ => ?_
    have hanswer : List.Forall₂ C.name (key.text :: seen) (key'.text :: seen') := .cons hk.name h
    rw [← attachmentKind?_congr hk.name]
    cases hkind : attachmentKind? key.text with
    | none =>
      refine (coupled_report hk.1 (.unknownAttachmentKey hk.name)).bind fun _ _ _ => ?_
      exact coupled_pure hanswer
    | some kind =>
      have htext := eq_of_mem_words hk.name (mem_words_of_attachmentKind? hkind)
      cases hreference with
      | none => exact coupled_pure hanswer
      | some hr =>
        rw [htext] at hanswer ⊢
        exact (coupled_resolve _ _ hr).bind fun _ _ _ => coupled_pure hanswer

/-- An attachment block, behind `with`. -/
lemma coupled_attachments : Coupled C attachments attachments fun _ _ => True := by
  unfold attachments
  refine (coupled_expectMark _ _).bind fun _ _ _ => ?_
  refine (coupled_untilClosed (fun _ _ => coupled_attachment) .nil).discard.bind fun _ _ _ => ?_
  exact coupled_expectMark _ _

/-! ## Statements -/

/-- A `juliet` block, behind its keyword. -/
lemma coupled_juliet (hprevious : ∀ {s s'}, C.state s s' → C.token s.previous s'.previous) :
    Coupled C juliet juliet fun _ _ => True := by
  -- the flag is looked at and set before anything else
  have hrun : ∀ s, juliet s =
      (expectMark .openBrace "'\x7b' after 'juliet'" >>= fun _ => julietItems >>= fun _ =>
        expectMark .closeBrace "'\x7d' to close juliet block")
      { (if s.julietSeen then report .duplicateJuliet s.previous s else ((), s)).2 with
        julietSeen := true } := by
    intro s
    unfold juliet
    cases hseen : s.julietSeen
    · simp only [get_bind_apply, ite_apply, hseen]
      rfl
    · simp only [get_bind_apply, ite_apply, hseen]
      rfl
  have hbehind : Coupled C
      (expectMark .openBrace "'\x7b' after 'juliet'" >>= fun _ => julietItems >>= fun _ =>
        expectMark .closeBrace "'\x7d' to close juliet block")
      (expectMark .openBrace "'\x7b' after 'juliet'" >>= fun _ => julietItems >>= fun _ =>
        expectMark .closeBrace "'\x7d' to close juliet block") fun _ _ => True := by
    refine (coupled_expectMark _ _).bind fun _ _ _ => ?_
    refine (coupled_untilClosed (fun _ _ _ => coupled_julietItem) trivial).bind fun _ _ _ => ?_
    exact coupled_expectMark _ _
  intro s s' hs
  rw [CoupledAt, hrun, hrun]
  exact hbehind _ _ (C.juliet hs (hprevious hs))

/-- A `policy` statement, behind its keyword. -/
lemma coupled_policy : Coupled C policy policy fun _ _ => True := by
  unfold policy
  refine (coupled_expect _ _).bind fun name name' hname => ?_
  cases hname with
  | none => exact coupled_recoverStatement
  | some hn =>
    refine (coupled_define _ hn).bind fun _ _ _ => ?_
    refine (coupled_expectMark _ _).bind fun _ _ _ => ?_
    exact (coupled_expect _ _).discard.bind fun _ _ _ => coupled_expectMark _ _

/-- A `rubric` statement, behind its keyword. -/
lemma coupled_rubric : Coupled C rubric rubric fun _ _ => True := by
  unfold rubric
  refine (coupled_expect _ _).bind fun name name' hname => ?_
  cases hname with
  | none => exact coupled_recoverStatement
  | some hn =>
    refine (coupled_define _ hn).bind fun _ _ _ => ?_
    refine (coupled_expectMark _ _).bind fun _ _ _ => ?_
    refine (coupled_untilClosed (fun _ _ => coupled_rubricItem) ⟨.nil, .nil⟩).bind
      fun body body' hbody => ?_
    refine (coupled_expectMark _ _).bind fun _ _ _ => ?_
    refine coupled_forM (fun label label' hlabel => ?_) hbody.tiebreakers
    refine coupled_ite (contains_iff C.literal_eq_iff hlabel.literal hbody.criteria)
      (fun _ _ => coupled_pure trivial) fun _ _ => ?_
    exact coupled_report hlabel.1 (.unmatchedTiebreaker hlabel.literal)

/-- A `cadence` statement, behind its keyword. -/
lemma coupled_cadence : Coupled C cadence cadence fun _ _ => True := by
  unfold cadence
  refine (coupled_expect _ _).bind fun name name' hname => ?_
  cases hname with
  | none => exact coupled_recoverStatement
  | some hn =>
    refine (coupled_define _ hn).bind fun _ _ _ => ?_
    refine (coupled_expectMark _ _).bind fun _ _ _ => ?_
    refine (coupled_untilClosed (fun _ _ => coupled_cadenceItem) .nil).bind
      fun seen seen' hseen => ?_
    refine (coupled_expectMark _ _).bind fun _ _ _ => ?_
    have hkeys : List.Forall₂ (fun key key' => key ∈ words ∧ key = key') countKeys countKeys :=
      .cons ⟨by decide, rfl⟩ (.cons ⟨by decide, rfl⟩ .nil)
    refine coupled_forM (fun key key' hkey => ?_) hkeys
    obtain ⟨hword, rfl⟩ := hkey
    refine coupled_ite (contains_iff C.name_eq_iff (C.name_word hword) hseen)
      (fun _ _ => coupled_pure trivial) fun _ _ => ?_
    exact coupled_report hn.1 (.missingCadenceKey key)

/-- A `create` statement, behind its keyword. -/
lemma coupled_create (hprevious : ∀ {s s'}, C.state s s' → C.token s.previous s'.previous) :
    Coupled C create create fun _ _ => True := by
  unfold create
  refine (coupled_expect _ _).bind fun name name' hname => ?_
  cases hname with
  | none => exact coupled_recoverStatement
  | some hn =>
    refine (coupled_expectKeyword (by decide) _).bind fun _ _ _ => ?_
    refine (coupled_origin hprevious).bind fun _ _ _ => ?_
    refine (coupled_acceptWord (by decide)).bind fun g g' hg => ?_
    refine coupled_when (by rw [hg]) coupled_dependencies ?_
    refine (coupled_acceptWord (by decide)).bind fun g g' hg => ?_
    refine coupled_when (by rw [hg]) coupled_attachments ?_
    exact (coupled_expectMark _ _).bind fun _ _ _ => coupled_define _ hn

/-- An `extend` statement, behind its keyword. -/
lemma coupled_extend : Coupled C extend extend fun _ _ => True := by
  unfold extend
  refine (coupled_expect _ _).bind fun name name' hname => ?_
  cases hname with
  | none => exact coupled_recoverStatement
  | some hn =>
    refine (coupled_resolve _ _ hn).bind fun _ _ _ => ?_
    refine (coupled_expectMark _ _).bind fun _ _ _ => ?_
    refine (coupled_expect _ _).bind fun target target' htarget => ?_
    have hbehind : Coupled C (do
          expectKeyword "with" "'with' after extend target"
          discard (expectLiteral "string or block string after 'with'")
          expectMark .semicolon "';' after extend statement")
        (do
          expectKeyword "with" "'with' after extend target"
          discard (expectLiteral "string or block string after 'with'")
          expectMark .semicolon "';' after extend statement") fun _ _ => True := by
      refine (coupled_expectKeyword (by decide) _).bind fun _ _ _ => ?_
      exact (coupled_expect _ _).discard.bind fun _ _ _ => coupled_expectMark _ _
    cases htarget with
    | none => exact hbehind
    | some ht =>
      refine coupled_unless (beq_word_iff ht.name (by decide)) ?_ hbehind
      exact coupled_report ht.1 .unsupportedExtendTarget

/-- A `halt` statement, behind its keyword. -/
lemma coupled_halt : Coupled C halt halt fun _ _ => True := by
  unfold halt
  refine coupled_get_bind fun s s' hs => ?_
  refine coupled_unless ?_ (coupled_expect _ _).discard (coupled_expectMark _ _) s s' hs
  rw [isAt_eq hs]

/-- **Statements keep a coupling** in which the tokens passed last are similar. -/
lemma coupled_statement (hprevious : ∀ {s s'}, C.state s s' → C.token s.previous s'.previous)
    (kind : StatementKind) : Coupled C (statement kind) (statement kind) fun _ _ => True := by
  cases kind with
  | juliet => exact coupled_juliet hprevious
  | policy => exact coupled_policy
  | rubric => exact coupled_rubric
  | cadence => exact coupled_cadence
  | create => exact coupled_create hprevious
  | extend => exact coupled_extend
  | halt => exact coupled_halt

/-! ## Scripts -/

/-- One round over a script keeps a coupling. Behind the keyword of a statement, the token passed
last is that keyword. -/
lemma coupled_scriptItem {s s' : Checker} (hs : C.state s s') (hgo : s.atEnd = false) :
    CoupledAt C scriptItem scriptItem (fun _ _ => True) s s' := by
  unfold scriptItem
  refine coupledAt_get_bind ?_
  rw [← ofToken?_eq (current hs)]
  cases hkind : StatementKind.ofToken? s.current with
  | none =>
    refine ((coupled_reportCurrent (.expected _)).bind fun _ _ _ => ?_) s s' hs
    exact coupled_recoverStatement
  | some kind =>
    have hprevious : C.token s.skip.previous s'.skip.previous := by
      refine previous_skip hs fun hend => ?_
      rw [hgo] at hend
      exact Bool.noConfusion hend
    have hrun := coupled_statement (C := inside C) (fun h => h.2) kind s.skip s'.skip
      ⟨C.skip hs, hprevious⟩
    exact ⟨trivial, hrun.2.1⟩

/-- **Scripts keep every coupling.** -/
lemma coupled_script : Coupled C script script fun _ _ => True := by
  refine coupled_iterate (fun _ _ _ => ?_) trivial
  refine coupled_get_bind fun s s' hs => coupledAt_ite ?_ (fun _ _ => ?_) fun hgo _ => ?_
  · rw [atEnd_eq hs]
  · exact ⟨⟨trivial, rfl⟩, hs⟩
  · refine (coupled_scriptItem hs (by simpa using hgo)).bind fun _ _ _ => ?_
    exact coupled_pure ⟨trivial, rfl⟩

/-- States that go together lead to states that go together. -/
lemma finish_coupled {s s' : Checker} (h : C.state s s') : C.state (finish s) (finish s') :=
  (coupled_script s s' h).2

end Check

end WorkflowLint
