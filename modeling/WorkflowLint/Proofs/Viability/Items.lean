import WorkflowLint.Proofs.Viability.Loops

/-!
# Items that complain in time

The parts of statements, one by one. All of them complain of the first token that cannot stand where
it does, with two exceptions. In a cadence a key is blamed if no equals sign stands behind it,
because the check looks at both tokens before it passes any. In a list of source files the opening
bracket is blamed if the list is empty, because the list is counted when it has been closed.

## Main definitions

* `WorkflowLint.Check.LateKey`, `WorkflowLint.Check.LateBracket` — the two exceptions.

## Main results

* `WorkflowLint.Check.guided_julietItem`, `WorkflowLint.Check.guided_rubricItem`,
  `WorkflowLint.Check.guided_attachment` — items that complain in time.
* `WorkflowLint.Check.guided_cadenceItem`, `WorkflowLint.Check.guided_sourceFiles` — the two that
  may complain late.
-/

set_option autoImplicit false

namespace WorkflowLint.Check

open Grammar

variable {α : Type} {c : Prop} {E : Late}

/-! ## Settings -/

/-- Without the token that is expected, nothing is taken. -/
lemma guided_missing {kinds : List TokenKind} (hkinds : .eof ∉ kinds) {what : String} {m : Check α}
    (hm : Forward m) : Guided (c ∧ ∃ ts, Takes (expect kinds (.expected what)) none ts) E m := by
  refine guided_absurd hm ?_
  rintro ⟨-, ts, hts⟩
  obtain ⟨l, hnone, -⟩ := hts.reads (reads_expect hkinds what)
  cases hnone

/-- An assignment in a `juliet` block. -/
lemma guided_julietItem : Guided c E julietItem := by
  unfold julietItem
  refine (guided_expectName _).bind fun key => ?_
  cases key with
  | none => exact guided_missing (by decide) (reads_recover _).forward
  | some key =>
    refine guided_unless ?_ (silent_report rfl _)
    refine (guided_expectMark _ _).bind fun _ => guided_ite (fun _ => ?_) fun _ => ?_
    · exact (guided_expectLeaf (by decide) (by decide) _).bind fun _ => guided_expectMark _ _
    · exact (guided_expectLeaf (by decide) (by decide) _).bind fun _ => guided_expectMark _ _

/-! ## Rubrics -/

/-- A criterion, behind its keyword. -/
lemma guided_criterion (body : RubricBody) : Guided c E (criterion body) := by
  unfold criterion
  refine (guided_expectLiteral _).bind fun label => ?_
  refine (guided_expectKeyword _ _).bind fun _ => ?_
  refine (guided_expectNumber _).bind fun points => ?_
  refine Guided.after ?_ (silent_requirePositive rfl points)
  have hbehind : ∀ {c E}, Guided c E
      (expectMark .semicolon "';' after criterion definition" >>= fun _ =>
        pure (body.enter label)) :=
    (guided_expectMark _ _).bind fun _ => guided_pure _
  refine guided_keyword ((guided_expectLiteral _).bind fun meaning => ?_) hbehind
    ((demands_expectMark _ _).bind (reads_expectMark _ _).forward fun _ => reads_pure trivial)
  cases meaning with
  | none => exact hbehind
  | some meaning => exact guided_when hbehind (silent_report rfl _)

/-- An entry of a list of tiebreakers. -/
lemma guided_tiebreaker (body : RubricBody) : Guided c E (tiebreaker body) := by
  unfold tiebreaker
  refine (guided_expectLiteral _).bind fun label => ?_
  cases label with
  | none => exact guided_pure _
  | some label => exact guided_pure _

lemma demands_tiebreaker (body : RubricBody) : Demands (tiebreaker body) := by
  refine (demands_expect (by decide) _).bind (reads_expectLiteral _).forward fun label => ?_
  cases label with
  | none => exact reads_pure trivial
  | some label => exact reads_pure trivial

/-- A list of tiebreakers, behind its keyword. -/
lemma guided_tiebreakers (body : RubricBody) : Guided c E (tiebreakers body) := by
  unfold tiebreakers
  have hclose : ∀ {c E} (b : RubricBody), Guided c E
      (expectMark .semicolon "';' after tiebreakers statement" >>= fun _ => pure b) :=
    fun b => (guided_expectMark _ _).bind fun _ => guided_pure b
  refine (guided_expectMark _ _).bind fun _ => Guided.of_never ?_
  refine guided_listed guided_tiebreaker demands_tiebreaker
    (closing_expectMark_bind _ _ fun b => (hclose (c := True) (E := never) b).forward)
    (fun _ b _ _ => ?_) ?_
  · exact (guided_expectMark _ _).bind fun _ => hclose b
  · exact (guided_expectMark _ _).bind fun _ => hclose body

lemma forward_recoverInBlock_pure (a : α) : Forward (recoverInBlock >>= fun _ => pure a) :=
  (reads_recover _).forward.bind fun _ => reads_pure trivial

/-- An item of a rubric. -/
lemma guided_rubricItem (body : RubricBody) : Guided c E (rubricItem body) := by
  unfold rubricItem
  have hrecover := forward_recoverInBlock_pure body
  have hlast := complains_reportCurrent_bind (f := fun _ => recoverInBlock >>= fun _ => pure body)
    hrecover "'criterion' or 'tiebreakers' inside rubric block"
  refine guided_keyword (guided_criterion body) ?_ (demands_keyword (demands_of_complains hlast))
  exact guided_keyword_last (guided_tiebreakers body)
    ((reads_reportCurrent _).forward.bind fun _ => hrecover) hlast

/-! ## Cadences -/

/-- A `compare` action, behind its keyword. -/
lemma guided_compareAction : Guided c E compareAction := by
  unfold compareAction
  refine (guided_expectKeyword _ _).bind fun _ => (guided_expectName _).bind fun name => ?_
  cases name with
  | none => exact guided_expectMark _ _
  | some name => exact (guided_expectMark _ _).after (silent_resolve _ _ _)

/-- A `keep` action, behind its keyword. -/
lemma guided_keepAction : Guided c E keepAction := by
  unfold keepAction
  refine (guided_expectKeyword _ _).bind fun _ => (guided_expectNumber _).bind fun limit => ?_
  exact (guided_expectMark _ _).after (silent_requirePositive rfl limit)

/-- What is read behind the equals sign of an assignment in a cadence. -/
def assignmentTail (seen : List String) (key : Token) : Check (List String) := do
  if key.text == "engine" then
    discard expectEngine
    expectMark .semicolon "';' after cadence assignment"
    return seen
  else if countKeys.contains key.text then
    let value ← expectNumber ("an integer for cadence key '" ++ key.text ++ "'")
    requirePositive (.nonPositiveCount key.text) value
    expectMark .semicolon "';' after cadence assignment"
    return key.text :: seen
  else
    report (.unknownCadenceKey key.text) key
    discard (expectValue "a value after cadence assignment")
    expectMark .semicolon "';' after cadence assignment"
    return seen

/-- An item of a cadence that is introduced by no keyword. -/
def assignmentItem (seen : List String) : Check (List String) := do
  let s ← get
  if s.isAt [.identifier] && (s.peek 1).kind == .mark .equals then
    let key ← advance
    discard advance
    assignmentTail seen key
  else
    reportCurrent (.expected "cadence assignment or action (compare/keep)")
    recoverInBlock
    return seen

/-- A cadence's item is one of two actions or an assignment. -/
lemma cadenceItem_eq (seen : List String) :
    cadenceItem seen = (do
      if ← acceptWord "compare" then
        compareAction
        return seen
      else if ← acceptWord "keep" then
        keepAction
        return seen
      else
        assignmentItem seen) := rfl

/-- A value is read as its key asks for. -/
lemma guided_assignmentTail (seen : List String) (key : Token) :
    Guided c E (assignmentTail seen key) := by
  unfold assignmentTail
  have hsemicolon : ∀ {c E} (keys : List String), Guided c E
      (expectMark .semicolon "';' after cadence assignment" >>= fun _ => pure keys) :=
    fun keys => (guided_expectMark _ _).bind fun _ => guided_pure keys
  refine guided_ite (fun _ => ?_) fun _ => guided_ite (fun _ => ?_) fun _ => Guided.after ?_ ?_
  · exact (guided_expectLeaf (by decide) (by decide) _).bind fun _ => hsemicolon _
  · refine (guided_expectNumber _).bind fun value => ?_
    exact (hsemicolon _).after (silent_requirePositive rfl value)
  · exact (guided_expectLeaf (by decide) (by decide) _).bind fun _ => hsemicolon _
  · exact silent_report rfl key

lemma forward_assignmentItem (seen : List String) : Forward (assignmentItem seen) := by
  intro s hs
  refine readsAt_get_bind (readsAt_ite (fun _ => ?_) (fun _ => ?_))
  · refine forward_advance.bind (fun key => ?_) s hs
    refine forward_advance.discard.forward.bind fun _ => ?_
    exact (guided_assignmentTail (c := True) (E := never) seen key).forward
  · refine (reads_reportCurrent _).forward.bind (fun _ => ?_) s hs
    exact (reads_recover _).forward.bind fun _ => reads_pure trivial

/-- In front of a name and an equals sign, an assignment passes both. -/
lemma assignmentItem_of_equals (seen : List String) {s : Checker} {key : Name}
    {equals : Punct .equals} {rest : List Token} (h : s.ahead = key.token :: equals.token :: rest) :
    assignmentItem seen s = assignmentTail seen key.token s.skip.skip ∧
      s.skip.skip.ahead = rest := by
  obtain ⟨past, ahead, eof, reports, definitions, julietSeen⟩ := s
  replace h : ahead = key.token :: equals.token :: rest := h
  subst h
  refine ⟨?_, rfl⟩
  rw [assignmentItem, get_bind_apply, if_pos (by simp [Checker.peek])]
  rfl

/-- Everywhere else it complains of the token at hand. -/
lemma assignmentItem_of_not_equals {seen : List String} {s : Checker}
    (h : (s.isAt [.identifier] && (s.peek 1).kind == .mark .equals) = false) :
    assignmentItem seen s =
      (recoverInBlock >>= fun _ => pure seen)
        (report (.expected "cadence assignment or action (compare/keep)") s.current s).2 := by
  rw [assignmentItem, get_bind_apply, if_neg (by rw [h]; exact Bool.false_ne_true)]
  rfl

/-- A key of a cadence is blamed because of what stands behind it in place of an equals sign. -/
def LateKey : Late := fun seen y x =>
  seen = [] ∧ y.kind = .identifier ∧ y.text ≠ "compare" ∧ y.text ≠ "keep" ∧
    x.kind ≠ .mark .equals

/-- What is taken behind an equals sign is taken with the key in front. -/
lemma Takes.assignmentItem {seen answer : List String} {key : Name} {equals : Punct .equals}
    {ts : List Token} (h : Takes (assignmentTail seen key.token) answer ts) :
    Takes (assignmentItem seen) answer (key.token :: equals.token :: ts) := by
  refine ⟨?_, fun s rest hs hahead => ?_⟩
  · exact List.forall_mem_cons.2 ⟨by simp, List.forall_mem_cons.2 ⟨by simp, h.1⟩⟩
  · obtain ⟨hrun, hrest⟩ := assignmentItem_of_equals seen hahead
    obtain ⟨hanswer, hready, hafter, heof⟩ := h.2 s.skip.skip rest hs.skip.skip hrest
    rw [hrun]
    refine ⟨hanswer, hready, hafter, heof.trans ?_⟩
    rw [s.skip.skip_forward.1, s.skip_forward.1]

/-- What is complained of behind an equals sign is complained of with the key in front. -/
lemma Complains.assignmentItem {seen : List String} {key : Name} {equals : Punct .equals}
    {us : List Token} {x y : Token} (h : Complains (assignmentTail seen key.token) (us ++ [x]) y) :
    Complains (assignmentItem seen) (key.token :: equals.token :: us ++ [x]) y := by
  intro s hs hprefix
  obtain ⟨rest, hrest⟩ := Checker.prefix_ahead_of_prefix_view hprefix
  obtain ⟨hrun, hafter⟩ := assignmentItem_of_equals seen hrest.symm
  rw [hrun]
  refine h _ hs.skip.skip ?_
  have hview : s.view = key.token :: equals.token :: s.skip.skip.view := by
    rw [Checker.view, Checker.view, ← hrest, hafter, s.skip.skip_forward.1, s.skip_forward.1]
    rfl
  rw [hview] at hprefix
  simpa [List.cons_prefix_cons] using hprefix

/-- In front of a name, the next token is the one behind it. -/
lemma peek_one_eq {s : Checker} (h : s.ahead = s.current :: s.skip.ahead) :
    s.peek 1 = s.skip.current := by
  have hcurrent : s.skip.current = s.skip.ahead.headD s.skip.eof := rfl
  rw [hcurrent, s.skip_forward.1, Checker.peek, h]
  cases s.skip.ahead <;> rfl

/-- The view from a state that is not at its end. -/
lemma view_eq_cons {s : Checker} (h : s.ahead = s.current :: s.skip.ahead) :
    s.view = s.current :: s.skip.view := by
  rw [Checker.view, Checker.view, h, s.skip_forward.1]
  rfl

/-- What is no name is complained of. -/
lemma complains_not_name (seen : List String) {t : Token} (ht : t.kind ≠ .identifier) :
    Complains (assignmentItem seen) [t] t := by
  refine complains_of_report _ (forward_recoverInBlock_pure seen) fun s _ hcurrent =>
    assignmentItem_of_not_equals ?_
  simp [Checker.isAt, hcurrent, ht]

/-- A key without an equals sign is complained of. -/
lemma complains_key (seen : List String) {key x : Token} (hkey : key.kind = .identifier)
    (hx : x.kind ≠ .mark .equals) : Complains (assignmentItem seen) [key, x] key := by
  intro s hs hprefix
  have hcurrent := Checker.current_eq_of_prefix hprefix
  have hahead := hs.ahead_eq (by rw [hcurrent, hkey]; exact TokenKind.noConfusion)
  rw [view_eq_cons hahead, hcurrent, List.cons_prefix_cons] at hprefix
  have hnext := Checker.current_eq_of_prefix hprefix.2
  have hcomplains : Complains
      (reportCurrent (.expected "cadence assignment or action (compare/keep)") >>= fun _ =>
        recoverInBlock >>= fun _ => pure seen) [key] key :=
    complains_reportCurrent_bind (forward_recoverInBlock_pure seen) _ key
  rw [assignmentItem_of_not_equals (by simp [peek_one_eq hahead, hnext, hx])]
  refine hcomplains s hs ?_
  rw [view_eq_cons hahead, hcurrent]
  exact List.cons_prefix_cons.2 ⟨rfl, List.nil_prefix⟩

/-- An assignment, where no action is introduced.

**Proof sketch.** In front of a key and an equals sign, the outcome is that of the value behind
them. In front of a key alone, it is blamed because of what stands behind it. -/
lemma outcome_assignmentItem (seen : List String) {s : Checker} (hs : s.Ready)
    (hcompare : s.isAtWord "compare" = false) (hkeep : s.isAtWord "keep" = false) :
    Outcome LateKey (assignmentItem seen) s := by
  by_cases hkey : s.current.kind = .identifier
  · have hguided := guided_assignmentTail (c := True) (E := never) seen s.current
    obtain ⟨answer, vs, hvs⟩ := hguided.takes trivial
    have hahead := hs.ahead_eq (by rw [hkey]; exact TokenKind.noConfusion)
    let key : Name := ⟨s.current, List.mem_singleton.2 hkey⟩
    by_cases hequals : s.skip.current.kind = .mark .equals
    · let equals : Punct .equals := ⟨s.skip.current, List.mem_singleton.2 hequals⟩
      have hahead' := hs.skip.ahead_eq (by rw [hequals]; exact TokenKind.noConfusion)
      have hview : s.view = key.token :: equals.token :: s.skip.skip.view := by
        rw [view_eq_cons hahead, view_eq_cons hahead']
      cases hguided.outcome trivial _ hs.skip.skip with
      | @takes b ts hts hprefix =>
        have htakes : Takes (assignmentItem seen) b (key.token :: equals.token :: ts) :=
          hts.assignmentItem
        refine .takes htakes ?_
        rw [hahead, hahead']
        exact List.cons_prefix_cons.2 ⟨rfl, List.cons_prefix_cons.2 ⟨rfl, hprefix⟩⟩
      | @complains us x y hprefix hcomplains hblames hrepair =>
        have hitem : Complains (assignmentItem seen) (key.token :: equals.token :: us ++ [x]) y :=
          hcomplains.assignmentItem
        cases hblames with
        | late h => exact h.elim
        | at_fault =>
          refine .complains ?_ hitem .at_fault fun _ => ?_
          · rw [hview]
            exact List.cons_prefix_cons.2 ⟨rfl, List.cons_prefix_cons.2 ⟨rfl, hprefix⟩⟩
          · cases us with
            | nil => exact ⟨answer, vs, hvs.assignmentItem⟩
            | cons t us =>
              obtain ⟨b, ws, hws⟩ := hrepair (List.cons_ne_nil t us)
              exact ⟨b, ws, hws.assignmentItem⟩
    · have hblames : Blames LateKey ([] ++ [s.current]) s.skip.current s.current := by
        refine .late ⟨rfl, hkey, ?_, ?_, hequals⟩
        · intro htext
          simp [Checker.isAtWord, Token.isWord, hkey, htext] at hcompare
        · intro htext
          simp [Checker.isAtWord, Token.isWord, hkey, htext] at hkeep
      refine .complains ?_ (complains_key seen hkey hequals) hblames fun _ => ?_
      · rw [view_eq_cons hahead]
        exact List.cons_prefix_cons.2 ⟨rfl, s.skip.singleton_prefix_view⟩
      · let equals : Punct .equals := ⟨⟨.mark .equals, "=", default⟩, by decide⟩
        have htakes : Takes (assignmentItem seen) answer (key.token :: equals.token :: vs) :=
          hvs.assignmentItem
        exact ⟨answer, equals.token :: vs, htakes⟩
  · exact outcome_of_complains (complains_not_name seen hkey)

lemma demands_assignmentItem (seen : List String) : Demands (assignmentItem seen) := by
  intro s hs hnil
  have hkind : s.current.kind ≠ .identifier := by simp [Checker.current, hnil, hs.eof_kind]
  exact (complains_not_name seen hkind s hs s.singleton_prefix_view).not_tidy

/-- An item of a cadence. -/
lemma guided_cadenceItem (seen : List String) : Guided c LateKey (cadenceItem seen) := by
  rw [cadenceItem_eq]
  have hcompare : ∀ {c E}, Guided c E (compareAction >>= fun _ => pure seen) :=
    guided_compareAction.bind fun _ => guided_pure seen
  have hkeep : ∀ {c E}, Guided c E (keepAction >>= fun _ => pure seen) :=
    guided_keepAction.bind fun _ => guided_pure seen
  refine ⟨?_, fun hc => exists_takes_keyword ((hcompare (E := never)).takes hc), fun hc s hs => ?_⟩
  · exact forward_keyword (hcompare (c := True) (E := never)).forward
      (forward_keyword (hkeep (c := True) (E := never)).forward (forward_assignmentItem seen))
  · refine outcome_keyword hs hc hcompare (demands_keyword (demands_assignmentItem seen))
      fun hnot => outcome_keyword hs hc hkeep (demands_assignmentItem seen) fun hnot' => ?_
    exact outcome_assignmentItem seen hs hnot hnot'

/-! ## Artifacts -/

/-- A path in a list of source files. -/
lemma guided_sourceFile (seen : List String) : Guided c E (sourceFile seen) := by
  unfold sourceFile
  refine (guided_expect (by decide) (by decide) _).bind fun path => ?_
  cases path with
  | none => exact guided_pure _
  | some path => exact guided_when (guided_pure _) (silent_report rfl _)

lemma demands_sourceFile (seen : List String) : Demands (sourceFile seen) := by
  unfold sourceFile
  refine (demands_expect (by decide) _).bind (reads_expect (by decide) _).forward fun path => ?_
  cases path with
  | none => exact reads_pure trivial
  | some path => exact reads_when ((reads_report _ _).mono fun _ _ h => h.1) (reads_pure trivial)

/-- Behind a path there is one at least. -/
lemma reads_sourceFile_ne_nil (seen : List String) :
    Reads (sourceFile seen) fun paths _ => paths ≠ [] := by
  unfold sourceFile
  refine (reads_expect (by decide) _).bind fun path => ?_
  cases path with
  | none =>
    refine reads_pure ?_
    rintro _ ⟨l, hnone, -⟩
    cases hnone
  | some path =>
    refine reads_when ((reads_report _ _).mono fun _ _ h => h.1) (reads_pure ?_)
    intro _ _
    exact List.cons_ne_nil _ _

/-- What closes a list of source files, and counts it. -/
def closeSourceFiles (bracket : Option Token) (seen : List String) : Check Unit := do
  expectMark .closeBracket "']' after source files list"
  if seen.isEmpty then
    report (.expected "at least one file path in julietArtifactSourceFiles list")
      (bracket.getD (← get).previous)

lemma sourceFiles_eq :
    sourceFiles = (do
      let bracket ← expect [.mark .openBracket] (.expected "'[' after 'julietArtifactSourceFiles'")
      listed sourceFile [] >>= closeSourceFiles bracket) := rfl

lemma closing_closeSourceFiles (bracket : Option Token) :
    Closing .closeBracket (closeSourceFiles bracket) := by
  refine closing_expectMark_bind _ _ fun seen => reads_ite (fun _ s hs => ?_) fun _ => ?_
  · exact readsAt_get_bind ((reads_report _ _).forward s hs)
  · exact reads_pure trivial

/-- A list of source files behind its bracket, if it is not empty. -/
lemma guided_separated_sourceFile (bracket : Option Token) :
    Guided c never (separated sourceFile [] >>= closeSourceFiles bracket) := by
  refine guided_separated guided_sourceFile demands_sourceFile (closing_closeSourceFiles bracket)
    (fun _ seen _ hts => ?_) []
  have hne := hts.reads (reads_sourceFile_ne_nil _)
  refine (guided_expectMark _ _).bind fun _ => ?_
  rw [if_neg (by simpa using hne)]
  exact guided_pure _

/-- The opening bracket of an empty list of source files is blamed. -/
def LateBracket : Late := fun seen y x =>
  seen = [] ∧ y.kind = .mark .openBracket ∧ x.kind = .mark .closeBracket

/-- An empty list is complained of on its opening bracket. -/
lemma complains_bracket {opening closing : Token} (hopening : opening.kind = .mark .openBracket)
    (hclosing : closing.kind = .mark .closeBracket) :
    Complains sourceFiles [opening, closing] opening := by
  intro s hs hprefix
  have hcurrent := Checker.current_eq_of_prefix hprefix
  have hahead := hs.ahead_eq (by rw [hcurrent, hopening]; exact TokenKind.noConfusion)
  rw [view_eq_cons hahead, hcurrent, List.cons_prefix_cons] at hprefix
  have hnext := Checker.current_eq_of_prefix hprefix.2
  have hat : s.isAt [.mark .openBracket] = true := by simp [Checker.isAt, hcurrent, hopening]
  have hat' : s.skip.isAt [.mark .closeBracket] = true := by simp [Checker.isAt, hnext, hclosing]
  have hreports : (sourceFiles s).2.reports =
      ⟨.expected "at least one file path in julietArtifactSourceFiles list", opening.range⟩ ::
        s.skip.skip.reports := by
    rw [sourceFiles_eq, bind_apply, expect_apply, if_pos hat, listed_of_closed hat', hcurrent]
    simp [closeSourceFiles, expectMark, expect_apply, hat']
  refine ⟨[], _, _, hreports, ⟨_, rfl⟩, rfl, ?_⟩
  rw [s.skip.skip_forward.2.1, s.skip_forward.2.1]
  exact hs.tidy

/-- A list of source files that is taken starts with a path. -/
lemma reads_separated_sourceFile (bracket : Option Token) :
    Reads (separated sourceFile [] >>= closeSourceFiles bracket) fun _ ts =>
      ∃ l : Quoted, l.token ∈ ts.head? := by
  refine (reads_separated reads_sourceFile []).bind fun seen =>
    ((closing_closeSourceFiles bracket).forward seen).mono ?_
  rintro _ us - ts ⟨as, has⟩
  cases has with
  | last a => exact ⟨a, rfl⟩
  | cons a comma _ => exact ⟨a, rfl⟩

/-- A list of source files with a path can be taken. -/
lemma takes_sourceFiles (bracket : Option Token) :
    ∃ a ts, Takes (listed sourceFile [] >>= closeSourceFiles bracket) a ts := by
  obtain ⟨a, ts, hts⟩ := (guided_separated_sourceFile (c := True) bracket).takes trivial
  obtain ⟨l, hl⟩ := hts.reads (reads_separated_sourceFile bracket)
  obtain ⟨rest, rfl⟩ := List.head?_eq_some_iff.1 hl
  refine ⟨a, _, hts.of_current fun s _ hcurrent => listed_of_open ?_⟩
  simp [Checker.isAt, hcurrent]

/-- A list of source files, behind its keyword.

**Proof sketch.** An empty list is blamed on its bracket. Otherwise the token behind the bracket
does not close the list, and then the paths are read one by one. -/
lemma guided_sourceFiles : Guided c LateBracket sourceFiles := by
  have hexpect : ∀ {c E}, Guided c E
      (expect [.mark .openBracket] (.expected "'[' after 'julietArtifactSourceFiles'")) :=
    guided_expect (by decide) (by decide) _
  have hforward : ∀ bracket, Forward (listed sourceFile [] >>= closeSourceFiles bracket) :=
    fun bracket => (forward_listed (fun b => (reads_sourceFile b).forward) []).bind
      (closing_closeSourceFiles bracket).forward
  rw [sourceFiles_eq]
  refine ⟨(hexpect (c := True) (E := never)).forward.bind hforward, fun _ => ?_, fun hc s hs => ?_⟩
  · obtain ⟨bracket, ts, hts⟩ := (hexpect (c := True) (E := never)).takes trivial
    obtain ⟨a, us, hus⟩ := takes_sourceFiles bracket
    exact ⟨a, _, hts.bind hus⟩
  by_cases hempty : s.isAt [.mark .openBracket] = true ∧ s.skip.isAt [.mark .closeBracket] = true
  · have hopening : s.current.kind = .mark .openBracket := by simpa [Checker.isAt] using hempty.1
    have hclosing : s.skip.current.kind = .mark .closeBracket := by
      simpa [Checker.isAt] using hempty.2
    have hahead := hs.ahead_eq (by rw [hopening]; exact TokenKind.noConfusion)
    have hblames : Blames LateBracket ([] ++ [s.current]) s.skip.current s.current :=
      .late ⟨rfl, hopening, hclosing⟩
    have hcomplains := complains_bracket hopening hclosing
    rw [sourceFiles_eq] at hcomplains
    refine .complains ?_ hcomplains hblames fun _ => ?_
    · rw [view_eq_cons hahead]
      exact List.cons_prefix_cons.2 ⟨rfl, s.skip.singleton_prefix_view⟩
    · obtain ⟨a, us, hus⟩ := takes_sourceFiles (some s.current)
      have hbracket := takes_expect (by decide) (List.mem_singleton.2 hopening)
        (.expected "'[' after 'julietArtifactSourceFiles'")
      exact ⟨a, us, hbracket.bind hus⟩
  · refine (hexpect.outcome hc s hs).bind hs (hexpect (c := True) (E := never)).forward hforward
      (fun bracket _ _ => takes_sourceFiles bracket) fun bracket ts hts hahead hready => ?_
    -- the bracket has been passed, and another token than the closing one is at hand
    have hopen : (expect [.mark .openBracket]
        (.expected "'[' after 'julietArtifactSourceFiles'") s).2.isAt [.mark .closeBracket] =
          false := by
      by_cases hat : s.isAt [.mark .openBracket] = true
      · rw [expect_apply, if_pos hat]
        simpa [hat] using hempty
      · have hnil := congrArg List.length hahead
        obtain ⟨l, -, rfl⟩ := hts.reads (reads_expect (by decide) _)
        rw [expect_apply, if_neg hat, report_apply, List.length_append] at hnil
        simp at hnil
    refine Outcome.of_current ?_ ?_ fun s' _ hsame => listed_of_open (by rwa [Checker.isAt, hsame])
    · exact ((guided_separated_sourceFile bracket).of_never).outcome hc _ hready
    · intro a ha
      obtain ⟨l, hl⟩ := ha.reads (reads_separated_sourceFile bracket)
      cases hl

/-- The bracket of an empty list of source files is blamed behind the keyword of the list. -/
def LateOrigin : Late := fun seen y x =>
  (∃ w : Word "julietArtifactSourceFiles", seen = [w.token]) ∧ y.kind = .mark .openBracket ∧
    x.kind = .mark .closeBracket

/-- What an artifact is made from. -/
lemma guided_origin : Guided c LateOrigin origin := by
  unfold origin
  have hlast : ∀ t, Complains
      (reportCurrent (.expected "'juliet' or 'julietArtifactSourceFiles' after 'from'")) [t] t :=
    fun _ => complains_of_report (n := pure ()) _ (reads_pure trivial) fun _ _ _ => rfl
  refine guided_keyword (guided_expectLeaf (by decide) (by decide) _) ?_
    (demands_keyword (demands_of_complains hlast))
  refine guided_keyword_last (guided_sourceFiles.mono ?_) (reads_reportCurrent _).forward hlast
  rintro _ y x ⟨rfl, hy, hx⟩ w
  exact ⟨⟨w, rfl⟩, hy, hx⟩

/-- An entry of a `using` list. -/
lemma guided_dependency : Guided c E dependency := by
  unfold dependency
  refine (guided_expectName _).bind fun name => ?_
  cases name with
  | none => exact guided_pure _
  | some name => exact (silent_resolve _ _ _).guided

lemma demands_dependency : Demands dependency := by
  unfold dependency
  refine (demands_expect (by decide) _).bind (reads_expectName _).forward fun name => ?_
  cases name with
  | none => exact reads_pure trivial
  | some name => exact (silent_resolve _ _ _).1

/-- A `using` list, behind its keyword. -/
lemma guided_dependencies : Guided c E dependencies := by
  unfold dependencies
  refine (guided_expectMark _ _).bind fun _ => Guided.of_never ?_
  exact guided_listed (fun _ => guided_dependency) (fun _ => demands_dependency)
    (closing_expectMark _ _) (fun _ _ _ _ => guided_expectMark _ _) (guided_expectMark _ _)

/-- An attachment. -/
lemma guided_attachment (seen : List String) : Guided c E (attachment seen) := by
  unfold attachment
  refine (guided_expectName _).bind fun key => ?_
  cases key with
  | none => exact guided_missing (by decide) (forward_recoverInBlock_pure seen)
  | some key =>
    refine guided_when ?_ (silent_report rfl _)
    refine (guided_expectMark _ _).bind fun _ => (guided_expectName _).bind fun reference => ?_
    have hbehind : ∀ {c E} {m : Check Unit}, Silent m →
        Guided c E (m >>= fun _ => pure (key.text :: seen)) := by
      intro c E m h
      exact Guided.after (f := fun _ => pure (key.text :: seen)) (guided_pure _) h
    refine (guided_expectMark _ _).bind fun _ => ?_
    split
    · exact hbehind (silent_report rfl _)
    · exact hbehind (silent_resolve _ _ _)
    · exact guided_pure _

/-- An attachment block, behind `with`. -/
lemma guided_attachments : Guided c E attachments := by
  unfold attachments
  refine (guided_expectMark _ _).bind fun _ => Guided.of_never ?_
  exact guided_block (fun seen _ hs => passes_attachment seen hs) guided_attachment
    (fun _ _ _ _ h => h.elim) (closing_expectMark _ _) (fun _ => guided_expectMark _ _) []

end WorkflowLint.Check
