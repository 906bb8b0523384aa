import WorkflowLint.Proofs.Simulation.Items

/-!
# Checking a script that is spelled out

In front of tokens that spell a statement, a check passes exactly these tokens, reports exactly the
diagnostics of the abstract statement, and leaves the scope behind it. What follows the statement
is not looked at, so the statements of a script can be checked one after the other.

## Main results

* `WorkflowLint.Check.scriptItem_run` — a spelled statement.
* `WorkflowLint.Check.script_run` — a spelled script in front of anything.
* `WorkflowLint.Check.finish_of_spelled_script` — a script that is spelled by all tokens.
-/

set_option autoImplicit false

namespace WorkflowLint.Check

open Grammar

section Run

variable {past ahead : List Token} {eof : Token} {reports : List Diagnostic}
  {definitions : List Definition} {seen : Bool}

/-! ## Statements -/

/-- An item of a rubric starts with its keyword. -/
lemma rubricItem_starts {a : RubricItem} {ts : List Token} (h : a.Spells ts) :
    ∃ t us, ts = t :: us ∧ t.kind = .identifier := by
  cases h with
  | criterion keyword _ _ _ _ => exact ⟨_, _, rfl, keyword.kind_eq⟩
  | criterionMeans keyword _ _ _ _ _ _ => exact ⟨_, _, rfl, keyword.kind_eq⟩
  | tiebreakers keyword _ _ => exact ⟨_, _, rfl, keyword.kind_eq⟩

/-- An item of a cadence starts with its keyword or its key. -/
lemma cadenceItem_starts {a : CadenceItem} {ts : List Token} (h : a.Spells ts) :
    ∃ t us, ts = t :: us ∧ t.kind = .identifier := by
  cases h with
  | compare keyword _ _ _ => exact ⟨_, _, rfl, keyword.kind_eq⟩
  | keep keyword _ _ _ => exact ⟨_, _, rfl, keyword.kind_eq⟩
  | assign _ h => exact assignment_starts h

/-- A loop over a list reports what is said about each of its items. -/
lemma forM_run {α : Type} {f : α → Check Unit} {say : α → List Diagnostic} {as : List α}
    (hsay : ∀ a ∈ as, ∀ reports, f a ⟨past, ahead, eof, reports, definitions, seen⟩ =
      ((), ⟨past, ahead, eof, (say a).reverse ++ reports, definitions, seen⟩)) :
    as.forM f ⟨past, ahead, eof, reports, definitions, seen⟩ =
      ((), ⟨past, ahead, eof, (as.flatMap say).reverse ++ reports, definitions, seen⟩) := by
  induction as generalizing reports with
  | nil => rfl
  | cons a as ih =>
    change (f a >>= fun _ => as.forM f) _ = _
    rw [bind_apply, hsay a (by simp), ih fun x hx => hsay x (by simp [hx])]
    simp

/-- The criteria that the items of a rubric declare, and their tiebreakers. -/
lemma foldl_rubricStep (items : List RubricItem) (body : RubricBody) :
    (∀ x, x ∈ (items.foldl rubricStep body).criteria ↔
        x ∈ body.criteria ∨ x ∈ items.flatMap RubricItem.criteria) ∧
      (items.foldl rubricStep body).tiebreakers =
        body.tiebreakers ++ (items.flatMap RubricItem.labels).map Leaf.token := by
  induction items generalizing body with
  | nil => simp
  | cons a items ih =>
    obtain ⟨hc, hl⟩ := ih (rubricStep body a)
    rw [List.foldl_cons]
    refine ⟨fun x => ?_, ?_⟩
    · rw [hc, List.flatMap_cons, List.mem_append]
      cases a with
      | criterion label points meaning =>
        simp only [rubricStep, RubricItem.criteria, List.mem_cons, List.not_mem_nil, or_false]
        rw [or_assoc, or_left_comm]
      | tiebreakers labels => simp [rubricStep, RubricItem.criteria]
    · rw [hl]
      cases a <;> simp [rubricStep, RubricItem.labels]

/-- The tiebreakers that are no criteria are reported. -/
lemma matchTiebreakers_run (items : List RubricItem) :
    matchTiebreakers (items.foldl rubricStep ⟨[], []⟩)
        ⟨past, ahead, eof, reports, definitions, seen⟩ =
      ((), ⟨past, ahead, eof, ((items.flatMap RubricItem.labels).flatMap fun label =>
        complain (label.token.text ∉ items.flatMap RubricItem.criteria)
          (.unmatchedTiebreaker label.token.text) label.token).reverse ++ reports, definitions,
        seen⟩) := by
  obtain ⟨hc, hl⟩ := foldl_rubricStep items ⟨[], []⟩
  rw [matchTiebreakers, hl, List.nil_append]
  have hsay : ∀ label ∈ (items.flatMap RubricItem.labels).map Leaf.token, ∀ reports,
      (unless (items.foldl rubricStep ⟨[], []⟩).criteria.contains label.text do
        report (.unmatchedTiebreaker label.text) label : Check Unit)
          ⟨past, ahead, eof, reports, definitions, seen⟩ =
        ((), ⟨past, ahead, eof, (complain (label.text ∉ items.flatMap RubricItem.criteria)
          (.unmatchedTiebreaker label.text) label).reverse ++ reports, definitions, seen⟩) := by
    intro label _ reports
    have hmem := hc label.text
    by_cases h : label.text ∈ items.flatMap RubricItem.criteria
    · simp [complain, hmem, h]
    · simp [complain, hmem, h]
  rw [forM_run hsay, List.flatMap_map]

/-- The count keys that the items of a cadence set. -/
lemma mem_foldl_cadenceStep {key : String} (hkey : key = "variants" ∨ key = "sprints")
    (items : List CadenceItem) (keys : List String) :
    key ∈ items.foldl cadenceStep keys ↔ key ∈ keys ∨ key ∈ items.flatMap CadenceItem.keys := by
  induction items generalizing keys with
  | nil => simp
  | cons a items ih =>
    rw [List.foldl_cons, ih, List.flatMap_cons, List.mem_append]
    cases a with
    | compare rubric => simp [cadenceStep, CadenceItem.keys]
    | keep limit => simp [cadenceStep, CadenceItem.keys]
    | assign a key_ne =>
      by_cases hc : a.key.token.text = "variants" ∨ a.key.token.text = "sprints"
      · simp only [cadenceStep, CadenceItem.keys, hc, if_true, List.mem_cons, List.not_mem_nil,
          or_false]
        rw [or_assoc, or_left_comm]
      · have hne : key ≠ a.key.token.text := by
          rintro rfl
          exact hc hkey
        simp [cadenceStep, CadenceItem.keys, hc, hne]

/-- The count keys that a cadence lacks are reported. -/
lemma requireCountKeys_run (name : Name) (items : List CadenceItem) :
    requireCountKeys name.token (items.foldl cadenceStep [])
        ⟨past, ahead, eof, reports, definitions, seen⟩ =
      ((), ⟨past, ahead, eof, (["variants", "sprints"].flatMap fun key =>
        complain (key ∉ items.flatMap CadenceItem.keys) (.missingCadenceKey key)
          name.token).reverse ++ reports, definitions, seen⟩) := by
  apply forM_run
  intro key hkey reports
  have hmem := mem_foldl_cadenceStep (by simpa [countKeys] using hkey) items []
  by_cases h : key ∈ items.flatMap CadenceItem.keys
  · simp [complain, hmem, h]
  · simp [complain, hmem, h]

/-- A `juliet` block behind its keyword. -/
lemma juliet_run (keyword : Word "juliet") {settings : List (Assignment julietValue)}
    {ts : List Token} (h : Sequence Assignment.Spells settings ts) (opening : Punct .openBrace)
    (closing : Punct .closeBrace) :
    juliet ⟨keyword.token :: past, opening.token :: (ts ++ closing.token :: ahead), eof, reports,
        definitions, seen⟩ =
      ((), ⟨closing.token :: (ts.reverse ++ opening.token :: keyword.token :: past), ahead, eof,
        ((Statement.juliet keyword settings).diagnostics (scopeOf definitions seen)).reverse ++
          reports, definitions, true⟩) := by
  have hitem : ∀ {a : Assignment julietValue} {ts}, a.Spells ts → ∀ (_ : Unit) past rest reports,
      julietItem ⟨past, ts ++ rest, eof, reports, definitions, true⟩ =
        ((), ⟨ts.reverse ++ past, rest, eof, a.julietDiagnostics.reverse ++ reports, definitions,
          true⟩) :=
    fun h _ => julietItem_run h
  have hrun := untilClosed_run h hitem assignment_starts closing ahead ()
  rw [gather_const] at hrun
  by_cases hj : seen = true
  · simp [juliet, julietItems, expectMark, hrun, hj, Statement.diagnostics, complain]
  · simp [juliet, julietItems, expectMark, hrun, hj, Statement.diagnostics, complain]

/-- A `policy` statement behind its keyword. -/
lemma policy_run (name : Name) (equals : Punct .equals) (body : Literal)
    (semicolon : Punct .semicolon) :
    policy ⟨past, name.token :: equals.token :: body.token :: semicolon.token :: ahead, eof,
        reports, definitions, seen⟩ =
      ((), ⟨semicolon.token :: body.token :: equals.token :: name.token :: past, ahead, eof,
        ((Statement.policy name body).diagnostics (scopeOf definitions seen)).reverse ++ reports,
        enterName .policy name definitions, seen⟩) := by
  simp [policy, expectName, expectMark, expectLiteral, Statement.diagnostics]

/-- A `rubric` statement behind its keyword. -/
lemma rubric_run (name : Name) {items : List RubricItem} {ts : List Token}
    (h : Sequence RubricItem.Spells items ts) (opening : Punct .openBrace)
    (closing : Punct .closeBrace) :
    rubric ⟨past, name.token :: opening.token :: (ts ++ closing.token :: ahead), eof, reports,
        definitions, seen⟩ =
      ((), ⟨closing.token :: (ts.reverse ++ opening.token :: name.token :: past), ahead, eof,
        ((Statement.rubric name items).diagnostics (scopeOf definitions seen)).reverse ++ reports,
        enterName .rubric name definitions, seen⟩) := by
  have hrun := untilClosed_run h (@rubricItem_run eof (enterName .rubric name definitions) seen)
    rubricItem_starts closing ahead ⟨[], []⟩
  rw [gather_const] at hrun
  simp [rubric, rubricItems, expectName, expectMark, hrun, matchTiebreakers_run,
    Statement.diagnostics]

/-- A `cadence` statement behind its keyword. -/
lemma cadence_run (name : Name) {items : List CadenceItem} {ts : List Token}
    (h : Sequence CadenceItem.Spells items ts) (opening : Punct .openBrace)
    (closing : Punct .closeBrace) :
    cadence ⟨past, name.token :: opening.token :: (ts ++ closing.token :: ahead), eof, reports,
        definitions, seen⟩ =
      ((), ⟨closing.token :: (ts.reverse ++ opening.token :: name.token :: past), ahead, eof,
        ((Statement.cadence name items).diagnostics (scopeOf definitions seen)).reverse ++ reports,
        enterName .cadence name definitions, seen⟩) := by
  have hrun := untilClosed_run h (@cadenceItem_run eof (enterName .cadence name definitions) seen)
    cadenceItem_starts closing ahead []
  rw [gather_const, scopeOf_enterName] at hrun
  simp [cadence, cadenceItems, expectName, expectMark, hrun, requireCountKeys_run,
    Statement.diagnostics]

/-- A `create` statement behind its keyword. -/
lemma create_run (name : Name) (source : Word "from") {o : Origin} {uses : List Name}
    {as : List (Assignment attachmentValue)} {os us ws : List Token} (ho : o.Spells os)
    (hu : UsesSpelled uses us) (ha : AttachmentsSpelled as ws) (semicolon : Punct .semicolon) :
    create ⟨past, name.token :: source.token :: (os ++ (us ++ (ws ++ semicolon.token :: ahead))),
        eof, reports, definitions, seen⟩ =
      ((), ⟨semicolon.token :: (ws.reverse ++ (us.reverse ++ (os.reverse ++ source.token ::
          name.token :: past))), ahead, eof,
        ((Statement.create name o uses as).diagnostics (scopeOf definitions seen)).reverse ++
          reports, enterName .artifact name definitions, seen⟩) := by
  cases hu with
  | absent =>
    cases ha with
    | absent =>
      simp [create, expectName, expectKeyword, expectMark, origin_run ho, Statement.diagnostics,
        gatherAfter, gather]
    | given keyword opening closing ha =>
      simp [create, expectName, expectKeyword, expectMark, origin_run ho, attachments_run ha,
        Statement.diagnostics]
  | given keyword hu =>
    cases ha with
    | absent =>
      simp [create, expectName, expectKeyword, expectMark, origin_run ho, dependencies_run hu,
        Statement.diagnostics, gatherAfter, gather]
    | given keyword opening closing ha =>
      simp [create, expectName, expectKeyword, expectMark, origin_run ho, dependencies_run hu,
        attachments_run ha, Statement.diagnostics]

/-- An `extend` statement behind its keyword. -/
lemma extend_run (artifact : Name) (dot : Punct .dot) (target : Name) (joint : Word "with")
    (text : Literal) (semicolon : Punct .semicolon) :
    extend ⟨past, artifact.token :: dot.token :: target.token :: joint.token :: text.token ::
        semicolon.token :: ahead, eof, reports, definitions, seen⟩ =
      ((), ⟨semicolon.token :: text.token :: joint.token :: target.token :: dot.token ::
          artifact.token :: past, ahead, eof,
        ((Statement.extend artifact target text).diagnostics (scopeOf definitions seen)).reverse ++
          reports, definitions, seen⟩) := by
  by_cases h : target.token.text = "rubric"
  · simp [extend, expectName, expectMark, expectKeyword, expectLiteral, Statement.diagnostics,
      complain, h]
  · simp [extend, expectName, expectMark, expectKeyword, expectLiteral, Statement.diagnostics,
      complain, h]

/-- A `halt` statement with a message, behind its keyword. -/
lemma halt_message_run (message : Literal) (semicolon : Punct .semicolon) :
    halt ⟨past, message.token :: semicolon.token :: ahead, eof, reports, definitions, seen⟩ =
      ((), ⟨semicolon.token :: message.token :: past, ahead, eof, reports, definitions, seen⟩) := by
  have hne : message.token.kind ≠ .mark .semicolon := by
    intro hk
    have hmem := message.kind_mem
    rw [hk] at hmem
    exact absurd hmem (by decide)
  simp [halt, expectMark, expectLiteral, hne]

/-- A keyword introduces the statement it belongs to. -/
lemma ofToken?_word (kind : StatementKind) (w : Word kind.word) :
    StatementKind.ofToken? w.token = some kind := by
  cases kind <;>
    simp [StatementKind.ofToken?, StatementKind.all, StatementKind.word, Token.isWord]

/-- **A spelled statement.** In front of the tokens of a statement, a check passes exactly these and
reports exactly the diagnostics of the statement. -/
lemma scriptItem_run {st : Statement} {ts : List Token} (h : st.Spells ts) :
    scriptItem ⟨past, ts ++ ahead, eof, reports, definitions, seen⟩ =
      ((), ⟨ts.reverse ++ past, ahead, eof,
        (st.diagnostics (scopeOf definitions seen)).reverse ++ reports, st.enter definitions,
        (st.scope (scopeOf definitions seen)).julietSeen⟩) := by
  cases h with
  | juliet keyword opening closing h =>
    have hk := ofToken?_word .juliet keyword
    simp [scriptItem, hk, statement, juliet_run keyword h, Statement.scope, Statement.enter]
  | policy keyword name equals body semicolon =>
    have hk := ofToken?_word .policy keyword
    simp [scriptItem, hk, statement, policy_run, Statement.scope, Statement.enter]
  | rubric keyword name opening closing h =>
    have hk := ofToken?_word .rubric keyword
    simp [scriptItem, hk, statement, rubric_run name h, Statement.scope, Statement.enter]
  | cadence keyword name opening closing h =>
    have hk := ofToken?_word .cadence keyword
    simp [scriptItem, hk, statement, cadence_run name h, Statement.scope, Statement.enter]
  | create keyword name source semicolon ho hu ha =>
    have hk := ofToken?_word .create keyword
    simp [scriptItem, hk, statement, create_run name source ho hu ha, Statement.scope,
      Statement.enter]
  | extend keyword artifact dot target joint text semicolon =>
    have hk := ofToken?_word .extend keyword
    simp [scriptItem, hk, statement, extend_run, Statement.scope, Statement.enter]
  | halt keyword semicolon =>
    have hk := ofToken?_word .halt keyword
    simp [scriptItem, hk, statement, halt, expectMark, Statement.diagnostics, Statement.scope,
      Statement.enter]
  | haltMessage keyword message semicolon =>
    have hk := ofToken?_word .halt keyword
    simp [scriptItem, hk, statement, halt_message_run, Statement.diagnostics, Statement.scope,
      Statement.enter]

/-! ## Scripts -/

/-- A statement starts with its keyword. -/
lemma statement_ne_nil {st : Statement} {ts : List Token} (h : st.Spells ts) : ts ≠ [] := by
  cases h <;> simp

/-- **A spelled script in front of anything.** The check passes the script, reports its diagnostics,
and goes on with what follows as if it had started there with the scope behind the script.

**Proof sketch.** Induction on the statements. A statement has a token at least, so the loop goes on
behind it (`scriptItem_run`), where the scope is the one that the remaining statements are read in
(`scopeOf_statement`). -/
lemma script_run {sc : Script} {ts : List Token} (h : sc.Spells ts) :
    ∀ past reports definitions seen,
      script ⟨past, ts ++ ahead, eof, reports, definitions, seen⟩ =
        script ⟨ts.reverse ++ past, ahead, eof,
          (sc.diagnostics (scopeOf definitions seen)).reverse ++ reports,
          sc.foldl Statement.enter definitions,
          (sc.scope (scopeOf definitions seen)).julietSeen⟩ := by
  induction h with
  | nil =>
    intro past reports definitions seen
    rfl
  | @cons st sc ts us hst _ ih =>
    intro past reports definitions seen
    have hitem := @scriptItem_run past (us ++ ahead) eof reports definitions seen _ _ hst
    have hopen :
        Checker.atEnd ⟨past, ts ++ us ++ ahead, eof, reports, definitions, seen⟩ = false := by
      simp [Checker.atEnd, statement_ne_nil hst]
    have hpos : 0 < ts.length := List.length_pos_iff.2 (statement_ne_nil hst)
    rw [script_apply, hopen, List.append_assoc, hitem, if_neg Bool.false_ne_true,
      if_pos (by simp only [List.length_append]; omega), ih, scopeOf_statement]
    simp [Script.diagnostics, Script.scope, gather]

/-- The scope behind a script is that of the definitions behind it. -/
lemma scopeOf_script (sc : Script) (definitions : List Definition) (seen : Bool) :
    scopeOf (sc.foldl Statement.enter definitions)
        (sc.scope (scopeOf definitions seen)).julietSeen =
      sc.scope (scopeOf definitions seen) := by
  induction sc generalizing definitions seen with
  | nil => rfl
  | cons st sc ih =>
    have h := ih (st.enter definitions) (st.scope (scopeOf definitions seen)).julietSeen
    rw [scopeOf_statement] at h
    exact h

/-- **A script that is spelled by all tokens.** The check ends behind the last token. -/
lemma finish_of_spells {sc : Script} {ts : List Token} (h : sc.Spells ts) :
    finish ⟨past, ts, eof, reports, definitions, seen⟩ =
      ⟨ts.reverse ++ past, [], eof,
        (sc.diagnostics (scopeOf definitions seen)).reverse ++ reports,
        sc.foldl Statement.enter definitions,
        (sc.scope (scopeOf definitions seen)).julietSeen⟩ := by
  have hrun := @script_run [] eof _ _ h past reports definitions seen
  rw [List.append_nil] at hrun
  rw [finish, hrun, script_apply]
  rfl

end Run

/-- **On a grammatical script the diagnostics are exactly the specified ones.** Whatever tokens
spell the script, the check makes the diagnostics of the abstract script, in their order and on
their tokens; its four tables and its flag are those behind the script, and no token is left.

**Proof sketch.** The empty state has the empty scope, so this is `finish_of_spells`, read through
the views of the state. -/
theorem finish_of_spelled_script {sc : Script} {tokens : List Token} (h : sc.Spells tokens)
    (eof : Token) :
    (finish (.start tokens eof [])).reported = sc.diagnostics .empty ∧
      (∀ kind, (finish (.start tokens eof [])).table kind = (sc.scope .empty).names kind) ∧
      (finish (.start tokens eof [])).julietSeen = (sc.scope .empty).julietSeen ∧
      (finish (.start tokens eof [])).ahead = [] := by
  have hempty : scopeOf [] false = Scope.empty := rfl
  have hrun := @finish_of_spells [] eof [] [] false _ _ h
  have hscope := scopeOf_script sc [] false
  rw [hempty] at hrun hscope
  have hstart : Checker.start tokens eof [] = ⟨[], tokens, eof, [], [], false⟩ := rfl
  rw [hstart, hrun]
  refine ⟨?_, fun kind => ?_, rfl, rfl⟩
  · simp [Checker.reported]
  · rw [← hscope]
    rfl

/-- In `rubric R { tiebreakers ["x"]; criterion "y" points 0; }` the tiebreaker comes first, but it
is compared with the criteria behind the block, so the criterion is reported before it. -/
theorem finish_of_spelled_rubric :
    let token (kind : TokenKind) (text : String) (first last : Int) : Token :=
      ⟨kind, text, ⟨⟨0, first⟩, ⟨0, last⟩⟩⟩
    let tokens := [token .identifier "rubric" 0 6, token .identifier "R" 7 8,
      token (.mark .openBrace) "\x7b" 9 10, token .identifier "tiebreakers" 11 22,
      token (.mark .openBracket) "[" 23 24, token .string "x" 24 27,
      token (.mark .closeBracket) "]" 27 28, token (.mark .semicolon) ";" 28 29,
      token .identifier "criterion" 30 39, token .string "y" 40 43,
      token .identifier "points" 44 50, token .number "0" 51 52,
      token (.mark .semicolon) ";" 52 53, token (.mark .closeBrace) "\x7d" 54 55]
    ∃ sc : Script, sc.Spells tokens ∧
      (finish (.start tokens (.eofAt ⟨0, 55⟩) [])).reported =
        [⟨.nonPositivePoints, ⟨⟨0, 51⟩, ⟨0, 52⟩⟩⟩,
          ⟨.unmatchedTiebreaker "x", ⟨⟨0, 24⟩, ⟨0, 27⟩⟩⟩] := by
  intro token tokens
  have hties : RubricItem.Spells (.tiebreakers [⟨token .string "x" 24 27, by decide⟩]) _ :=
    .tiebreakers ⟨token .identifier "tiebreakers" 11 22, by decide⟩
      ⟨token (.mark .semicolon) ";" 28 29, by decide⟩
      (.filled ⟨token (.mark .openBracket) "[" 23 24, by decide⟩
        ⟨token (.mark .closeBracket) "]" 27 28, by decide⟩ (.last _))
  have hcriterion := RubricItem.Spells.criterion
    ⟨token .identifier "criterion" 30 39, by decide⟩ ⟨token .string "y" 40 43, by decide⟩
    ⟨token .identifier "points" 44 50, by decide⟩ ⟨token .number "0" 51 52, by decide⟩
    ⟨token (.mark .semicolon) ";" 52 53, by decide⟩
  have hrubric := Statement.Spells.rubric ⟨token .identifier "rubric" 0 6, by decide⟩
    ⟨token .identifier "R" 7 8, by decide⟩ ⟨token (.mark .openBrace) "\x7b" 9 10, by decide⟩
    ⟨token (.mark .closeBrace) "\x7d" 54 55, by decide⟩ (.cons hties (.cons hcriterion .nil))
  have hscript : Script.Spells [_] tokens := Sequence.cons hrubric .nil
  refine ⟨_, hscript, ?_⟩
  rw [(finish_of_spelled_script hscript _).1]
  decide

end WorkflowLint.Check
