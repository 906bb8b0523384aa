import WorkflowLint.Proofs.Acceptance.Basic
import WorkflowLint.Proofs.Remark
import WorkflowLint.Proofs.Simulation

/-!
# The scripts that raise no expectation

Whether a script is grammatical is not a verdict of the check but a property of its reports. Here
the two are shown to agree: no expectation fails exactly if the tokens spell a script.

One direction is the simulation of spelled scripts. For the other, what each check reads if no
expectation fails is worked out item by item and statement by statement.

## Main definitions

* `WorkflowLint.TokenStream` — tokens with one end, in last place.

## Main results

* `WorkflowLint.Check.reads_statement` — what the check of a statement reads behind its keyword.
* `WorkflowLint.Check.spells_of_clean` — tokens over which no expectation fails spell a script.
* `WorkflowLint.Check.no_expectation_iff_spells` — and only those.
-/

set_option autoImplicit false

namespace WorkflowLint.Check

open Grammar

/-! ## Items -/

/-- An assignment in a `juliet` block. -/
lemma reads_julietItem :
    Reads julietItem fun _ ts => ∃ a : Assignment julietValue, a.Spells ts := by
  unfold julietItem
  refine (reads_expectName _).bind fun key => ?_
  cases key with
  | none => exact reads_recover_missing _
  | some key =>
    -- the value is of the kind that the key asks for
    have hbehind : ∀ m : Check Unit,
        (Reads m fun _ ts => ∃ v : Leaf (julietValue key.text), ts = [v.token]) →
        Reads (m >>= fun _ => expectMark .semicolon "';' after juliet assignment") fun _ us =>
          ∀ ts, (∃ l : Punct .equals, ts = [l.token]) →
            ∀ ks, (∃ l : Name, some key = some l.token ∧ ks = [l.token]) →
              ∃ a : Assignment julietValue, a.Spells (ks ++ (ts ++ us)) := by
      intro m hm
      refine hm.bind fun _ => (reads_expectMark _ _).mono ?_
      rintro _ _ ⟨semicolon, rfl⟩ _ ⟨v, rfl⟩ _ ⟨equals, rfl⟩ _ ⟨name, hname, rfl⟩
      obtain rfl := Option.some.inj hname
      exact ⟨⟨name, v⟩, .mk _ equals semicolon⟩
    refine reads_unless ((reads_report _ _).mono fun _ _ h => h.1) ?_
    refine (reads_expectMark _ _).bind fun _ => reads_ite (fun h => ?_) fun h => ?_
    · refine hbehind _ ?_
      rw [julietValue, if_pos (by simpa using h)]
      exact reads_expectLeaf (by decide) _
    · refine hbehind _ ?_
      rw [julietValue, if_neg (by simpa using h)]
      exact reads_expectLeaf (by decide) _

/-- The assignments of a `juliet` block. -/
lemma reads_julietItems :
    Reads julietItems fun _ ts => ∃ as : List (Assignment julietValue),
      Sequence Assignment.Spells as ts :=
  reads_untilClosed (fun _ => reads_julietItem) ()

/-- A criterion, behind its keyword. -/
lemma reads_criterion (body : RubricBody) :
    Reads (criterion body) fun _ ts =>
      ∀ keyword : Word "criterion", ∃ a : RubricItem, a.Spells (keyword.token :: ts) := by
  unfold criterion
  refine (reads_expectLiteral _).bind fun label => ?_
  refine (reads_expectKeyword _ _).bind fun _ => ?_
  refine (reads_expectNumber _).bind fun points => ?_
  refine (reads_requirePositive points).bind_silent fun _ => ?_
  refine (reads_acceptWord _).bind fun given => ?_
  cases given with
  | false =>
    refine (reads_expectMark _ _).bind fun _ => reads_pure ?_
    rintro _ ⟨semicolon, rfl⟩ _ (⟨hfalse, -⟩ | ⟨-, rfl⟩) _ ⟨n, -, rfl⟩ _ ⟨worth, rfl⟩ _
      ⟨l, -, rfl⟩ keyword
    · exact Bool.noConfusion hfalse
    · exact ⟨_, .criterion keyword l worth n semicolon⟩
  | true =>
    refine (reads_expectLiteral _).bind fun meaning => ?_
    cases meaning with
    | none =>
      refine (reads_expectMark _ _).bind fun _ => reads_pure ?_
      rintro _ - _ ⟨m, hnone, -⟩
      cases hnone
    | some meaning =>
      refine reads_when ((reads_report _ _).mono fun _ _ h => h.1) ?_
      refine (reads_expectMark _ _).bind fun _ => reads_pure ?_
      rintro _ ⟨semicolon, rfl⟩ _ ⟨m, -, rfl⟩ _ (⟨-, means, rfl⟩ | ⟨hfalse, -⟩) _ ⟨n, -, rfl⟩ _
        ⟨worth, rfl⟩ _ ⟨l, -, rfl⟩ keyword
      · exact ⟨_, .criterionMeans keyword l worth n means m semicolon⟩
      · exact Bool.noConfusion hfalse

/-- An entry of a list of tiebreakers. -/
lemma reads_tiebreaker (body : RubricBody) :
    Reads (tiebreaker body) fun _ ts => ∃ l : Literal, ts = [l.token] := by
  unfold tiebreaker
  refine (reads_expectLiteral _).bind fun label => ?_
  cases label with
  | none =>
    refine reads_pure ?_
    rintro _ ⟨l, hnone, -⟩
    cases hnone
  | some label =>
    refine reads_pure ?_
    rintro _ ⟨l, -, rfl⟩
    exact ⟨l, rfl⟩

/-- A list of tiebreakers, behind its keyword. -/
lemma reads_tiebreakers (body : RubricBody) :
    Reads (tiebreakers body) fun _ ts =>
      ∀ keyword : Word "tiebreakers", ∃ a : RubricItem, a.Spells (keyword.token :: ts) := by
  unfold tiebreakers
  refine (reads_expectMark _ _).bind fun _ => ?_
  refine (reads_listed reads_tiebreaker body).bind fun body' => ?_
  refine (reads_expectMark _ _).bind fun _ => ?_
  refine (reads_expectMark _ _).bind fun _ => reads_pure ?_
  rintro _ ⟨semicolon, rfl⟩ _ ⟨closing, rfl⟩ ts hts _ ⟨opening, rfl⟩ keyword
  rcases hts with ⟨-, rfl⟩ | ⟨as, has⟩
  · exact ⟨_, .tiebreakers keyword semicolon (.empty opening closing)⟩
  · have hspell := RubricItem.Spells.tiebreakers keyword semicolon (.filled opening closing has)
    exact ⟨_, by simpa using hspell⟩

/-- An item of a rubric. -/
lemma reads_rubricItem (body : RubricBody) :
    Reads (rubricItem body) fun _ ts => ∃ a : RubricItem, a.Spells ts := by
  unfold rubricItem
  refine reads_keyword (reads_criterion body) (reads_keyword (reads_tiebreakers body) ?_)
  refine (reads_reportCurrent _).bind fun _ => ?_
  refine (reads_recover _).bind fun _ => reads_pure ?_
  rintro _ - _ ⟨-, hexpected⟩
  exact absurd rfl (hexpected _)

/-- The items of a rubric. -/
lemma reads_rubricItems (body : RubricBody) :
    Reads (rubricItems body) fun _ ts => ∃ as : List RubricItem,
      Sequence RubricItem.Spells as ts :=
  reads_untilClosed reads_rubricItem body

/-- A `compare` action, behind its keyword. -/
lemma reads_compareAction :
    Reads compareAction fun _ ts =>
      ∀ keyword : Word "compare", ∃ a : CadenceItem, a.Spells (keyword.token :: ts) := by
  unfold compareAction
  refine (reads_expectKeyword _ _).bind fun _ => ?_
  refine (reads_expectName _).bind fun name => ?_
  cases name with
  | none =>
    refine (reads_expectMark _ _).mono ?_
    rintro _ _ - _ ⟨l, hnone, -⟩
    cases hnone
  | some name =>
    refine (reads_resolve _ _ _).bind_silent fun _ => (reads_expectMark _ _).mono ?_
    rintro _ _ ⟨semicolon, rfl⟩ _ ⟨rubric, -, rfl⟩ _ ⟨joint, rfl⟩ keyword
    exact ⟨_, .compare keyword joint rubric semicolon⟩

/-- A `keep` action, behind its keyword. -/
lemma reads_keepAction :
    Reads keepAction fun _ ts =>
      ∀ keyword : Word "keep", ∃ a : CadenceItem, a.Spells (keyword.token :: ts) := by
  unfold keepAction
  refine (reads_expectKeyword _ _).bind fun _ => ?_
  refine (reads_expectNumber _).bind fun limit => ?_
  refine (reads_requirePositive _).bind_silent fun _ => (reads_expectMark _ _).mono ?_
  rintro _ _ ⟨semicolon, rfl⟩ _ ⟨n, -, rfl⟩ _ ⟨best, rfl⟩ keyword
  exact ⟨_, .keep keyword best n semicolon⟩

/-- An assignment in a cadence, in front of its key. The key is not one of the words that introduce
an action, and an equals sign stands behind it.

**Proof sketch.** The two tokens are passed without a question. Behind them, the key chooses between
three ways to read a value, and in each the value is of the kind that the key asks for. -/
lemma readsAt_cadenceAssignment (seen : List String) {s : Checker} (hs : s.eof.kind = .eof)
    (hkey : s.current.kind = .identifier) (hequals : (s.peek 1).kind = .mark .equals)
    (hne : s.current.text ≠ "compare" ∧ s.current.text ≠ "keep") :
    ReadsAt (cadenceAssignment seen) (fun _ ts => ∃ a : CadenceItem, a.Spells ts) s := by
  have hkind : s.current.kind ≠ s.eof.kind := by
    rw [hkey, hs]
    exact TokenKind.noConfusion
  have heof : s.skip.eof.kind = .eof := by rw [s.skip_forward.1, hs]
  have hcurrent : s.skip.current = s.peek 1 := by
    rw [Checker.peek, ahead_eq_of_kind_ne hkind, Checker.current, s.skip_forward.1]
    cases s.skip.ahead <;> rfl
  have hkind' : s.skip.current.kind ≠ s.skip.eof.kind := by
    rw [hcurrent, hequals, heof]
    exact TokenKind.noConfusion
  have hspell : ∀ (v : Leaf (cadenceValue s.current.text)) (semicolon : Punct .semicolon),
      ∃ a : CadenceItem, a.Spells [s.current, s.skip.current, v.token, semicolon.token] := by
    intro v semicolon
    let assignment : Assignment cadenceValue :=
      ⟨⟨s.current, List.mem_singleton.2 hkey⟩, v⟩
    let equals : Punct .equals := ⟨s.skip.current, by simp [hcurrent, hequals]⟩
    exact ⟨.assign assignment hne, .assign hne (.mk assignment equals semicolon)⟩
  unfold cadenceAssignment
  refine (readsAt_advance hkind).bind ((readsAt_advance hkind').discard.bind ?_)
  have heof' : s.skip.skip.eof.kind = .eof := by rw [s.skip.skip_forward.1, heof]
  refine reads_ite (fun h => ?_) (fun h => reads_ite (fun h' => ?_) fun h' => ?_) _ heof'
  · replace h : s.current.text = "engine" := by simpa using h
    refine (reads_expectLeaf (by decide) _).bind fun _ => ?_
    refine (reads_expectMark _ _).bind fun _ => reads_pure ?_
    rintro _ ⟨semicolon, rfl⟩ _ ⟨v, rfl⟩ _ ⟨-, rfl⟩ _ rfl
    exact hspell ⟨v.token, v.kind_mem_of_eq (by simp [cadenceValue, h])⟩ semicolon
  · replace h : s.current.text ≠ "engine" := by simpa using h
    replace h' : s.current.text = "variants" ∨ s.current.text = "sprints" := by
      simpa [countKeys] using h'
    refine (reads_expectNumber _).bind fun value => ?_
    refine (reads_requirePositive _).bind_silent fun _ => ?_
    refine (reads_expectMark _ _).bind fun _ => reads_pure ?_
    rintro _ ⟨semicolon, rfl⟩ _ ⟨v, -, rfl⟩ _ ⟨-, rfl⟩ _ rfl
    exact hspell ⟨v.token, v.kind_mem_of_eq (by simp [cadenceValue, h, h'])⟩ semicolon
  · replace h : s.current.text ≠ "engine" := by simpa using h
    replace h' : ¬ (s.current.text = "variants" ∨ s.current.text = "sprints") := by
      simpa [countKeys] using h'
    refine (reads_report _ _).bind fun _ => ?_
    refine (reads_expectLeaf (by decide) _).bind fun _ => ?_
    refine (reads_expectMark _ _).bind fun _ => reads_pure ?_
    rintro _ ⟨semicolon, rfl⟩ _ ⟨v, rfl⟩ _ ⟨rfl, -⟩ _ ⟨-, rfl⟩ _ rfl
    exact hspell ⟨v.token, v.kind_mem_of_eq (by simp [cadenceValue, h, h'])⟩ semicolon

/-- An item of a cadence. -/
lemma reads_cadenceItem (seen : List String) :
    Reads (cadenceItem seen) fun _ ts => ∃ a : CadenceItem, a.Spells ts := by
  intro s hs
  unfold cadenceItem
  refine readsAt_keyword hs ?_ fun hcompare => readsAt_keyword hs ?_ fun hkeep => ?_
  · refine reads_compareAction.bind fun _ => reads_pure ?_
    intro ts hts
    simpa using hts
  · refine reads_keepAction.bind fun _ => reads_pure ?_
    intro ts hts
    simpa using hts
  · refine readsAt_get_bind (readsAt_ite (fun h => ?_) fun _ => ?_)
    · simp only [Bool.and_eq_true, Checker.isAt, List.contains_cons, List.contains_nil,
        Bool.or_false, beq_iff_eq] at h
      refine readsAt_cadenceAssignment seen hs h.1 h.2 ⟨?_, ?_⟩
      · intro htext
        simp [Checker.isAtWord, Token.isWord, h.1, htext] at hcompare
      · intro htext
        simp [Checker.isAtWord, Token.isWord, h.1, htext] at hkeep
    · refine (reads_reportCurrent _).bind (fun _ => ?_) s hs
      refine (reads_recover _).bind fun _ => reads_pure ?_
      rintro _ - _ ⟨-, hexpected⟩
      exact absurd rfl (hexpected _)

/-- The items of a cadence. -/
lemma reads_cadenceItems (seen : List String) :
    Reads (cadenceItems seen) fun _ ts => ∃ as : List CadenceItem,
      Sequence CadenceItem.Spells as ts :=
  reads_untilClosed reads_cadenceItem seen

/-- A path in a list of source files. -/
lemma reads_sourceFile (seen : List String) :
    Reads (sourceFile seen) fun _ ts => ∃ l : Quoted, ts = [l.token] := by
  unfold sourceFile
  refine (reads_expect (by decide) _).bind fun path => ?_
  cases path with
  | none =>
    refine reads_pure ?_
    rintro _ ⟨l, hnone, -⟩
    cases hnone
  | some path =>
    refine reads_when ((reads_report _ _).mono fun _ _ h => h.1) (reads_pure ?_)
    rintro _ ⟨l, -, rfl⟩
    exact ⟨l, rfl⟩

/-- A list of source files, behind its keyword. An empty list is a failed expectation. -/
lemma reads_sourceFiles :
    Reads sourceFiles fun _ ts =>
      ∀ keyword : Word "julietArtifactSourceFiles",
        ∃ o : Origin, o.Spells (keyword.token :: ts) := by
  unfold sourceFiles
  refine (reads_expect (by decide) _).bind fun bracket => ?_
  refine (reads_listed reads_sourceFile []).bind fun seen => ?_
  refine (reads_expectMark _ _).bind fun _ => reads_ite (fun hempty => ?_) fun hfilled => ?_
  · intro s hs
    refine readsAt_get_bind ((reads_report _ _ s hs).mono ?_)
    rintro _ _ ⟨-, hexpected⟩
    exact absurd rfl (hexpected _)
  · refine reads_pure ?_
    rintro _ ⟨closing, rfl⟩ ts hts _ ⟨opening, -, rfl⟩ keyword
    rcases hts with ⟨rfl, -⟩ | ⟨as, has⟩
    · exact absurd rfl hfilled
    · cases as with
      | nil => cases has
      | cons first more =>
        exact ⟨.files first more, by simpa using Origin.Spells.files keyword opening closing has⟩

/-- What an artifact is made from. -/
lemma reads_origin : Reads origin fun _ ts => ∃ o : Origin, o.Spells ts := by
  unfold origin
  refine reads_keyword ?_ (reads_keyword reads_sourceFiles ?_)
  · refine (reads_expectLeaf (by decide) _).mono ?_
    rintro _ _ ⟨text, rfl⟩ keyword
    exact ⟨_, .prompt keyword text⟩
  · refine (reads_reportCurrent _).mono ?_
    rintro _ _ ⟨-, hexpected⟩
    exact absurd rfl (hexpected _)

/-- An entry of a `using` list. -/
lemma reads_dependency : Reads dependency fun _ ts => ∃ l : Name, ts = [l.token] := by
  unfold dependency
  refine (reads_expectName _).bind fun name => ?_
  cases name with
  | none =>
    refine reads_pure ?_
    rintro _ ⟨l, hnone, -⟩
    cases hnone
  | some name =>
    refine (reads_resolve _ _ _).mono ?_
    rintro _ _ rfl _ ⟨l, -, rfl⟩
    exact ⟨l, rfl⟩

/-- A `using` list, behind its keyword. -/
lemma reads_dependencies :
    Reads dependencies fun _ ts => ∃ names : List Name, Bracketed names ts := by
  unfold dependencies
  refine (reads_expectMark _ _).bind fun _ => ?_
  refine (reads_listed (fun _ => reads_dependency) ()).bind fun _ => (reads_expectMark _ _).mono ?_
  rintro _ _ ⟨closing, rfl⟩ ts hts _ ⟨opening, rfl⟩
  rcases hts with ⟨-, rfl⟩ | ⟨as, has⟩
  · exact ⟨[], .empty opening closing⟩
  · exact ⟨as, .filled opening closing has⟩

/-- An attachment. -/
lemma reads_attachment (seen : List String) :
    Reads (attachment seen) fun _ ts => ∃ a : Assignment attachmentValue, a.Spells ts := by
  unfold attachment
  refine (reads_expectName _).bind fun key => ?_
  cases key with
  | none =>
    refine (reads_recover _).bind fun _ => reads_pure ?_
    rintro _ - _ ⟨l, hnone, -⟩
    cases hnone
  | some key =>
    refine reads_when ((reads_report _ _).mono fun _ _ h => h.1) ?_
    refine (reads_expectMark _ _).bind fun _ => ?_
    refine (reads_expectName _).bind fun reference => ?_
    -- what is said about the reference passes no token
    have hbehind : ∀ m : Check Unit, (Reads m fun _ ts => ts = []) →
        Reads (m >>= fun _ => pure (key.text :: seen)) fun _ us => us = [] := by
      intro m hm
      exact hm.bind_silent fun _ => reads_pure rfl
    refine (reads_expectMark _ _).bind fun _ => Reads.mono (P := fun _ us => us = []) ?_ ?_
    · split
      · exact hbehind _ ((reads_report _ _).mono fun _ _ h => h.1)
      · exact hbehind _ (reads_resolve _ _ _)
      · exact reads_pure rfl
    · rintro _ _ rfl _ ⟨semicolon, rfl⟩ _ ⟨value, -, rfl⟩ _ ⟨equals, rfl⟩ _ ⟨name, -, rfl⟩
      exact ⟨⟨name, value⟩, .mk _ equals semicolon⟩

/-- An attachment block, behind `with`. -/
lemma reads_attachments :
    Reads attachments fun _ ts =>
      ∀ keyword : Word "with", ∃ as, AttachmentsSpelled as (keyword.token :: ts) := by
  unfold attachments
  refine (reads_expectMark _ _).bind fun _ => ?_
  refine (reads_untilClosed reads_attachment []).discard.bind fun _ => ?_
  refine (reads_expectMark _ _).mono ?_
  rintro _ _ ⟨closing, rfl⟩ _ ⟨-, as, has⟩ _ ⟨opening, rfl⟩ keyword
  exact ⟨as, .given keyword opening closing has⟩

/-! ## Statements -/

/-- A `juliet` block, behind its keyword. -/
lemma reads_juliet :
    Reads juliet fun _ ts =>
      ∀ keyword : Word "juliet", ∃ st : Statement, st.Spells (keyword.token :: ts) := by
  unfold juliet
  intro s hs
  refine readsAt_get_bind ?_
  refine reads_when (k := fun _ => _) (m := reportPrevious .duplicateJuliet) ?_ ?_ s hs
  · intro s hs
    exact (reads_report .duplicateJuliet s.previous s hs).mono fun _ _ h => h.1
  · refine Reads.bind_silent ?_ fun _ => ?_
    · intro s _
      exact ⟨rfl, List.suffix_rfl, [], rfl, fun _ => rfl⟩
    refine (reads_expectMark _ _).bind fun _ => ?_
    refine reads_julietItems.bind fun _ => (reads_expectMark _ _).mono ?_
    rintro _ _ ⟨closing, rfl⟩ ts ⟨as, has⟩ _ ⟨opening, rfl⟩ keyword
    exact ⟨_, .juliet keyword opening closing has⟩

/-- A `policy` statement, behind its keyword. -/
lemma reads_policy :
    Reads policy fun _ ts =>
      ∀ keyword : Word "policy", ∃ st : Statement, st.Spells (keyword.token :: ts) := by
  unfold policy
  refine (reads_expectName _).bind fun name => ?_
  cases name with
  | none => exact reads_recover_missing _
  | some name =>
    refine (reads_define _ _).bind_silent fun _ => ?_
    refine (reads_expectMark _ _).bind fun _ => ?_
    refine (reads_expectLeaf (by decide) _).bind fun _ => (reads_expectMark _ _).mono ?_
    rintro _ _ ⟨semicolon, rfl⟩ _ ⟨body, rfl⟩ _ ⟨equals, rfl⟩ _ ⟨l, -, rfl⟩ keyword
    exact ⟨_, .policy keyword l equals body semicolon⟩

/-- A `rubric` statement, behind its keyword. -/
lemma reads_rubric :
    Reads rubric fun _ ts =>
      ∀ keyword : Word "rubric", ∃ st : Statement, st.Spells (keyword.token :: ts) := by
  unfold rubric
  refine (reads_expectName _).bind fun name => ?_
  cases name with
  | none => exact reads_recover_missing _
  | some name =>
    refine (reads_define _ _).bind_silent fun _ => ?_
    refine (reads_expectMark _ _).bind fun _ => ?_
    refine (reads_rubricItems _).bind fun body => ?_
    refine (reads_expectMark _ _).bind fun _ => (reads_forM _ fun label => ?_).mono ?_
    · exact reads_ite (fun _ => reads_pure rfl) fun _ =>
        (reads_report _ _).mono fun _ _ h => h.1
    · rintro _ _ rfl _ ⟨closing, rfl⟩ _ ⟨as, has⟩ _ ⟨opening, rfl⟩ _ ⟨l, -, rfl⟩ keyword
      have hspell := Statement.Spells.rubric keyword l opening closing has
      exact ⟨_, by simpa using hspell⟩

/-- A `cadence` statement, behind its keyword. -/
lemma reads_cadence :
    Reads cadence fun _ ts =>
      ∀ keyword : Word "cadence", ∃ st : Statement, st.Spells (keyword.token :: ts) := by
  unfold cadence
  refine (reads_expectName _).bind fun name => ?_
  cases name with
  | none => exact reads_recover_missing _
  | some name =>
    refine (reads_define _ _).bind_silent fun _ => ?_
    refine (reads_expectMark _ _).bind fun _ => ?_
    refine (reads_cadenceItems _).bind fun seen => ?_
    refine (reads_expectMark _ _).bind fun _ => (reads_forM _ fun key => ?_).mono ?_
    · exact reads_ite (fun _ => reads_pure rfl) fun _ =>
        (reads_report _ _).mono fun _ _ h => h.1
    · rintro _ _ rfl _ ⟨closing, rfl⟩ _ ⟨as, has⟩ _ ⟨opening, rfl⟩ _ ⟨l, -, rfl⟩ keyword
      have hspell := Statement.Spells.cadence keyword l opening closing has
      exact ⟨_, by simpa using hspell⟩

/-- A `create` statement, behind its keyword. -/
lemma reads_create :
    Reads create fun _ ts =>
      ∀ keyword : Word "create", ∃ st : Statement, st.Spells (keyword.token :: ts) := by
  unfold create
  refine (reads_expectName _).bind fun name => ?_
  cases name with
  | none => exact reads_recover_missing _
  | some name =>
    refine (reads_expectKeyword _ _).bind fun _ => ?_
    refine reads_origin.bind fun _ => ?_
    refine reads_optional reads_dependencies (reads_optional reads_attachments ?_)
    refine (reads_expectMark _ _).bind fun _ => (reads_define _ _).mono ?_
    rintro _ _ rfl _ ⟨semicolon, rfl⟩ ws hws us hus os ⟨origin, hos⟩ _ ⟨source, rfl⟩ _
      ⟨l, -, rfl⟩ keyword
    obtain ⟨uses, huses⟩ : ∃ uses, UsesSpelled uses us := by
      rcases hus with rfl | ⟨using_, vs, rfl, names, hnames⟩
      · exact ⟨[], .absent⟩
      · exact ⟨names, .given using_ hnames⟩
    obtain ⟨as, has⟩ : ∃ as, AttachmentsSpelled as ws := by
      rcases hws with rfl | ⟨with_, vs, rfl, hvs⟩
      · exact ⟨[], .absent⟩
      · exact hvs with_
    have hspell := Statement.Spells.create keyword l source semicolon hos huses has
    exact ⟨_, by simpa using hspell⟩

/-- An `extend` statement, behind its keyword. -/
lemma reads_extend :
    Reads extend fun _ ts =>
      ∀ keyword : Word "extend", ∃ st : Statement, st.Spells (keyword.token :: ts) := by
  unfold extend
  refine (reads_expectName _).bind fun name => ?_
  cases name with
  | none => exact reads_recover_missing _
  | some name =>
    refine (reads_resolve _ _ _).bind_silent fun _ => ?_
    refine (reads_expectMark _ _).bind fun _ => ?_
    refine (reads_expectName _).bind fun target => ?_
    have hbehind : Reads (do
        expectKeyword "with" "'with' after extend target"
        discard (expectLiteral "string or block string after 'with'")
        expectMark .semicolon "';' after extend statement") fun _ us =>
          ∃ (joint : Word "with") (text : Literal) (semicolon : Punct .semicolon),
            us = [joint.token, text.token, semicolon.token] := by
      refine (reads_expectKeyword _ _).bind fun _ => ?_
      refine (reads_expectLeaf (by decide) _).bind fun _ => (reads_expectMark _ _).mono ?_
      rintro _ _ ⟨semicolon, rfl⟩ _ ⟨text, rfl⟩ _ ⟨joint, rfl⟩
      exact ⟨joint, text, semicolon, rfl⟩
    cases target with
    | none =>
      refine hbehind.mono ?_
      rintro _ _ - _ ⟨l, hnone, -⟩
      cases hnone
    | some target =>
      refine reads_unless ((reads_report _ _).mono fun _ _ h => h.1) (hbehind.mono ?_)
      rintro _ _ ⟨joint, text, semicolon, rfl⟩ _ ⟨target, -, rfl⟩ _ ⟨dot, rfl⟩ _ ⟨l, -, rfl⟩ keyword
      exact ⟨_, .extend keyword l dot target joint text semicolon⟩

/-- A `halt` statement, behind its keyword. -/
lemma reads_halt :
    Reads halt fun _ ts =>
      ∀ keyword : Word "halt", ∃ st : Statement, st.Spells (keyword.token :: ts) := by
  unfold halt
  intro s hs
  refine readsAt_get_bind (readsAt_ite (fun _ => ?_) fun _ => ?_)
  · refine (reads_expectMark _ _ s hs).mono ?_
    rintro _ _ ⟨semicolon, rfl⟩ keyword
    exact ⟨_, .halt keyword semicolon⟩
  · refine (reads_expectLeaf (by decide) _).bind (fun _ => (reads_expectMark _ _).mono ?_) s hs
    rintro _ _ ⟨semicolon, rfl⟩ _ ⟨message, rfl⟩ keyword
    exact ⟨_, .haltMessage keyword message semicolon⟩

/-- A statement, behind its keyword. -/
lemma reads_statement (kind : StatementKind) :
    Reads (statement kind) fun _ ts =>
      ∀ keyword : Word kind.word, ∃ st : Statement, st.Spells (keyword.token :: ts) := by
  cases kind with
  | juliet => exact reads_juliet
  | policy => exact reads_policy
  | rubric => exact reads_rubric
  | cadence => exact reads_cadence
  | create => exact reads_create
  | extend => exact reads_extend
  | halt => exact reads_halt

/-! ## Scripts -/

/-- One round over a script reads a statement. -/
lemma reads_scriptItem : Reads scriptItem fun _ ts => ∃ st : Statement, st.Spells ts := by
  intro s hs
  unfold scriptItem
  refine readsAt_get_bind ?_
  cases hkind : StatementKind.ofToken? s.current with
  | some kind =>
    have hword : s.isAtWord kind.word = true := by
      simpa [Checker.isAtWord] using List.find?_some hkind
    have heof : s.skip.eof.kind = .eof := by rw [s.skip_forward.1, hs]
    refine (readsAt_advance (kind_ne_of_isAtWord hs hword)).discard.bind ?_
    refine (reads_statement kind s.skip heof).mono ?_
    rintro _ us hus _ ⟨-, rfl⟩
    exact hus ⟨s.current, hword⟩
  | none =>
    refine (reads_reportCurrent _).bind (fun _ => (reads_recover _).mono ?_) s hs
    rintro _ _ - _ ⟨-, hexpected⟩
    exact absurd rfl (hexpected _)

/-- **Tokens over which no expectation fails spell a script.** And the check of a script withdraws
no report.

**Proof sketch.** Induction on the number of tokens ahead. If no expectation fails then a round
reads a statement, which is not empty, so the loop goes on until nothing is ahead. -/
lemma spells_of_clean {s : Checker} (hs : s.eof.kind = .eof) :
    s.reports <:+ (finish s).reports ∧ ((finish s).Clean → ∃ sc : Script, sc.Spells s.ahead) := by
  induction hn : s.ahead.length using Nat.strongRecOn generalizing s with
  | _ n ih =>
    subst hn
    obtain ⟨heof, hrep, ts, hts, hP⟩ := reads_scriptItem s hs
    rw [finish, script_apply]
    split
    · rename_i hend
      have hnil : s.ahead = [] := by simpa [Checker.atEnd] using hend
      exact ⟨List.suffix_rfl, fun _ => ⟨[], hnil ▸ Sequence.nil⟩⟩
    · split
      · rename_i hlt
        obtain ⟨hrep', hQ⟩ := ih _ hlt (heof ▸ hs) rfl
        refine ⟨hrep.trans hrep', fun hc => ?_⟩
        obtain ⟨st, hst⟩ := hP (hc.of_suffix hrep')
        obtain ⟨sc, hsc⟩ := hQ hc
        exact ⟨st :: sc, hts ▸ Sequence.cons hst hsc⟩
      · rename_i hlt
        refine ⟨hrep, fun hc => ?_⟩
        obtain ⟨st, hst⟩ := hP hc
        have hpos : 0 < ts.length := List.length_pos_iff.2 (statement_ne_nil hst)
        rw [hts, List.length_append] at hlt
        omega

end WorkflowLint.Check

namespace WorkflowLint

open Grammar

/-! ## The main result -/

/-- The tokens of a script with its end, of which there is one, in last place. -/
structure TokenStream where
  /-- The tokens in front of the end. -/
  tokens : List Token
  /-- The end. -/
  eof : Token
  /-- The end is an end. -/
  eof_kind : eof.kind = .eof
  /-- No token in front of it is one. -/
  kind_ne_eof : ∀ t ∈ tokens, t.kind ≠ .eof

/-- **Exactly the scripts of the grammar raise no expectation.** The check of a token stream, with
no diagnostics made earlier, makes no diagnostic whose message begins with "Expected" exactly if the
tokens in front of the end spell a script.

**Proof sketch.** The messages that begin so are those of failed expectations, among the findings
that a check makes. If none fails, then the tokens spell a script by `spells_of_clean`. Conversely,
over tokens that spell a script the check makes the diagnostics of the abstract script, which are
remarks. -/
theorem Check.no_expectation_iff_spells (t : TokenStream) :
    (∀ d ∈ (Check.finish (.start t.tokens t.eof [])).reported,
      ¬ "Expected".toList <+: d.message.toList) ↔ ∃ sc : Script, sc.Spells t.tokens := by
  constructor
  · intro h
    refine (Check.spells_of_clean (s := .start t.tokens t.eof []) t.eof_kind).2 ?_
    intro d hd what hwhat
    apply h d (List.mem_reverse.2 hd)
    rw [Diagnostic.message, hwhat]
    exact Finding.expected_message what
  · rintro ⟨sc, hsc⟩ d hd
    have hrun := @Check.finish_of_spells [] t.eof [] [] false sc t.tokens hsc
    have hmem : d ∈ sc.diagnostics (scopeOf [] false) := by
      have hstart : Checker.start t.tokens t.eof [] = ⟨[], t.tokens, t.eof, [], [], false⟩ := rfl
      rw [hstart, hrun] at hd
      simpa [Checker.reported] using hd
    exact Finding.isRemark_message (isRemark_of_mem_script hmem)

end WorkflowLint
