import WorkflowLint.Proofs.Viability.Items

/-!
# Statements that complain in time

Every statement complains of the first token with which it cannot be completed, but for two cases. A
key in a cadence is looked at together with the token behind it, and an empty list of source files
is only noticed at its end; then the key or the opening bracket is blamed.

In both cases what is blamed could have been continued, and with the next token it cannot.

## Main definitions

* `WorkflowLint.Grammar.Delayed` — the two cases, as broken off statements.

## Main results

* `WorkflowLint.Check.guided_statement`, `WorkflowLint.Check.guided_scriptItem` — statements
  complain in time, with these exceptions.
* `WorkflowLint.Check.complains_of_delayed` — what is blamed in the exceptions.
-/

set_option autoImplicit false

namespace WorkflowLint

open Grammar

namespace Grammar

/-- A statement that is broken off such that a token is blamed because of the one behind it. -/
inductive Delayed : List Token → Token → Token → Prop
  /-- A key of a cadence, behind some items of it, without an equals sign behind it. -/
  | key {items : List CadenceItem} {ts : List Token} {next : Token} (keyword : Word "cadence")
      (name : Name) (opening : Punct .openBrace) (key : Name) :
      Sequence CadenceItem.Spells items ts → key.token.text ≠ "compare" →
        key.token.text ≠ "keep" → next.kind ≠ .mark .equals →
          Delayed (keyword.token :: name.token :: opening.token :: ts) key.token next
  /-- The opening bracket of a list of source files, with the closing one behind it. -/
  | bracket (keyword : Word "create") (name : Name) (source : Word "from")
      (files : Word "julietArtifactSourceFiles") (opening : Punct .openBracket)
      (closing : Punct .closeBracket) :
      Delayed [keyword.token, name.token, source.token, files.token] opening.token closing.token

end Grammar

namespace Check

variable {c : Prop} {E : Late}

/-! ## Statements -/

/-- Entering a `juliet` block, behind its keyword. -/
def enterJuliet : Check Unit := do
  if (← get).julietSeen then
    reportPrevious .duplicateJuliet
  modify fun s => { s with julietSeen := true }

lemma juliet_eq :
    juliet = (do
      enterJuliet
      expectMark .openBrace "'\x7b' after 'juliet'"
      julietItems
      expectMark .closeBrace "'\x7d' to close juliet block") := by
  funext s
  cases hseen : s.julietSeen
  · simp [juliet, enterJuliet, hseen]
  · simp [juliet, enterJuliet, hseen]

/-- A repeated block is a remark. -/
lemma silent_enterJuliet : Silent enterJuliet := by
  have hrun : ∀ s : Checker, enterJuliet s =
      ((), { (if s.julietSeen then report .duplicateJuliet s.previous s else ((), s)).2 with
        julietSeen := true }) := by
    intro s
    cases hseen : s.julietSeen
    · simp [enterJuliet, hseen]
    · simp [enterJuliet, hseen]
  refine ⟨fun s _ => ?_, List.forall_mem_nil _, fun s rest hs hahead => ?_⟩
  · rw [ReadsAt, hrun]
    split
    · exact ⟨rfl, List.suffix_cons _ _, [], rfl, fun _ => trivial⟩
    · exact ⟨rfl, List.suffix_rfl, [], rfl, fun _ => trivial⟩
  · have hready := ((silent_report (f := .duplicateJuliet) rfl s.previous).2.2 s rest hs hahead).2.1
    rw [hrun]
    split
    · exact ⟨rfl, ⟨hs.eof_kind, hs.kind_ne_eof, hready.tidy⟩, hahead, rfl⟩
    · exact ⟨rfl, ⟨hs.eof_kind, hs.kind_ne_eof, hs.tidy⟩, hahead, rfl⟩

/-- A `juliet` block, behind its keyword. -/
lemma guided_juliet : Guided c E juliet := by
  rw [juliet_eq]
  refine Guided.after ((guided_expectMark _ _).bind fun _ => Guided.of_never ?_) silent_enterJuliet
  exact guided_block (fun _ _ hs => passes_julietItem hs) (fun _ => guided_julietItem)
    (fun _ _ _ _ h => h.elim) (closing_expectMark _ _) (fun _ => guided_expectMark _ _) ()

/-- A `policy` statement, behind its keyword. -/
lemma guided_policy : Guided c E policy := by
  unfold policy
  refine (guided_expectName _).bind fun name => ?_
  cases name with
  | none => exact guided_missing (by decide) (reads_recover _).forward
  | some name =>
    refine Guided.after ?_ (silent_define _ _)
    refine (guided_expectMark _ _).bind fun _ => ?_
    exact (guided_expectLeaf (by decide) (by decide) _).bind fun _ => guided_expectMark _ _

/-- A `rubric` statement, behind its keyword. -/
lemma guided_rubric : Guided c E rubric := by
  unfold rubric
  refine (guided_expectName _).bind fun name => ?_
  cases name with
  | none => exact guided_missing (by decide) (reads_recover _).forward
  | some name =>
    refine Guided.after ?_ (silent_define _ _)
    refine (guided_expectMark _ _).bind fun _ => Guided.of_never ?_
    have hmatch : ∀ body, Silent (matchTiebreakers body) := fun body =>
      silent_forM _ fun label => silent_ite (fun _ => silent_pure) fun _ => silent_report rfl _
    exact guided_block (fun body _ hs => passes_rubricItem body hs) guided_rubricItem
      (fun _ _ _ _ h => h.elim) (closing_expectMark_bind _ _ fun body => (hmatch body).1)
      (fun body => (guided_expectMark _ _).bind fun _ => (hmatch body).guided) ⟨[], []⟩

/-- An `extend` statement, behind its keyword. -/
lemma guided_extend : Guided c E extend := by
  unfold extend
  refine (guided_expectName _).bind fun name => ?_
  cases name with
  | none => exact guided_missing (by decide) (reads_recover _).forward
  | some name =>
    refine Guided.after ?_ (silent_resolve _ _ _)
    refine (guided_expectMark _ _).bind fun _ => (guided_expectName _).bind fun target => ?_
    have hbehind : ∀ {c E}, Guided c E (do
        expectKeyword "with" "'with' after extend target"
        discard (expectLiteral "string or block string after 'with'")
        expectMark .semicolon "';' after extend statement") := by
      intro c E
      refine (guided_expectKeyword _ _).bind fun _ => ?_
      exact (guided_expectLeaf (by decide) (by decide) _).bind fun _ => guided_expectMark _ _
    cases target with
    | none => exact hbehind
    | some target => exact guided_unless hbehind (silent_report rfl _)

/-- A `halt` statement, behind its keyword. The token at hand tells whether there is a message in
front of the semicolon. -/
lemma guided_halt : Guided c E halt := by
  have hbare : ∀ s : Checker, s.isAt [.mark .semicolon] = true →
      halt s = expectMark .semicolon "';' after halt statement" s := by
    intro s h
    rw [halt, get_bind_apply, if_pos h]
  have hmessage : ∀ s : Checker, s.isAt [.mark .semicolon] = false → halt s =
      (discard (expectLiteral "optional halt message string before ';'") >>= fun _ =>
        expectMark .semicolon "';' after halt statement") s := by
    intro s h
    rw [halt, get_bind_apply, if_neg (by rw [h]; exact Bool.false_ne_true)]
  refine ⟨reads_halt.forward, fun _ => ?_, fun hc s hs => ?_⟩
  · let semicolon : Punct .semicolon := ⟨⟨.mark .semicolon, ";", default⟩, by decide⟩
    have htakes := takes_expectMark semicolon "';' after halt statement"
    exact ⟨(), [semicolon.token], htakes.of_current fun s _ hcurrent =>
      hbare s (by simp [Checker.isAt, hcurrent])⟩
  · by_cases h : s.isAt [.mark .semicolon] = true
    · exact ((guided_expectMark (c := c) _ _).outcome hc s hs).of_current
        (demands_expectMark _ _).not_takes_nil fun s' _ hsame =>
          hbare s' (by rwa [Checker.isAt, hsame])
    · rw [Bool.not_eq_true] at h
      have hguided : Guided c E
          (discard (expectLiteral "optional halt message string before ';'") >>= fun _ =>
            expectMark .semicolon "';' after halt statement") :=
        (guided_expectLiteral _).discard.bind fun _ => guided_expectMark _ _
      have hdemands : Demands
          (discard (expectLiteral "optional halt message string before ';'") >>= fun _ =>
            expectMark .semicolon "';' after halt statement") :=
        Demands.bind (demands_expect (by decide) _) (reads_expectLiteral _).forward fun _ =>
          (reads_expectMark _ _).forward
      exact (hguided.outcome hc s hs).of_current hdemands.not_takes_nil fun s' _ hsame =>
        hmessage s' (by rwa [Checker.isAt, hsame])

/-- A key that is blamed behind some items of a cadence. -/
def LateItem : Late := fun seen y x =>
  (∃ items : List CadenceItem, Sequence CadenceItem.Spells items seen) ∧ LateKey [] y x

/-- The items of a cadence, with what closes them. -/
lemma guided_cadenceItems {γ : Type} {close : List String → Check γ}
    (hclosing : Closing .closeBrace close) (hclose : ∀ seen, Guided c LateItem (close seen)) :
    Guided c LateItem (cadenceItems [] >>= close) := by
  refine guided_block (fun seen _ hs => passes_cadenceItem seen hs)
    (fun seen => (guided_cadenceItem seen).mono ?_) ?_ hclosing hclose []
  · rintro _ y x ⟨rfl, h⟩
    exact ⟨⟨[], .nil⟩, rfl, h⟩
  · rintro seen seen' ts hts us y x ⟨⟨items, hitems⟩, h⟩
    obtain ⟨item, hitem⟩ := hts.reads (reads_cadenceItem seen)
    exact ⟨⟨item :: items, .cons hitem hitems⟩, h⟩

lemma silent_requireCountKeys (name : Token) (seen : List String) :
    Silent (requireCountKeys name seen) :=
  silent_forM _ fun _ => silent_ite (fun _ => silent_pure) fun _ => silent_report rfl _

/-- A `cadence` statement, behind its keyword. -/
lemma guided_cadence :
    Guided c (fun b y x => ∀ w : Word "cadence", Delayed (w.token :: b) y x) cadence := by
  unfold cadence
  refine (guided_expectName _).bind fun name => ?_
  cases name with
  | none => exact guided_missing (by decide) (reads_recover _).forward
  | some name =>
    refine Guided.after ?_ (silent_define _ _)
    refine (guided_expectMark _ _).bind fun _ => ?_
    have hcount := silent_requireCountKeys name
    refine (guided_cadenceItems (closing_expectMark_bind _ _ fun seen => (hcount seen).1)
      fun seen => (guided_expectMark _ _).bind fun _ => (hcount seen).guided).mono ?_
    rintro ts y x ⟨⟨items, hitems⟩, -, hkey, hcompare, hkeep, hnext⟩ us hus vs hvs keyword
    obtain ⟨opening, rfl⟩ := hus.reads (reads_expectMark _ _)
    obtain ⟨l, -, rfl⟩ := hvs.reads (reads_expectName _)
    exact .key keyword l opening ⟨y, List.mem_singleton.2 hkey⟩ hitems hcompare hkeep hnext

/-- What a `create` statement checks behind the origin of the artifact. -/
def createTail (name : Token) : Check Unit := do
  if ← acceptWord "using" then
    dependencies
  if ← acceptWord "with" then
    attachments
  expectMark .semicolon "';' after create statement"
  define .artifact name

lemma create_eq :
    create = (do
      let some name ← expectName "artifact name after 'create'" | recoverStatement
      expectKeyword "from" "'from' after artifact name"
      origin
      createTail name) := rfl

lemma guided_createTail (name : Token) : Guided c E (createTail name) := by
  unfold createTail
  have hend : ∀ {c E}, Guided c E
      (expectMark .semicolon "';' after create statement" >>= fun _ => define .artifact name) :=
    (guided_expectMark _ _).bind fun _ => (silent_define _ _).guided
  have hdemands : Demands (expectMark .semicolon "';' after create statement" >>= fun _ =>
      define .artifact name) :=
    (demands_expectMark _ _).bind (reads_expectMark _ _).forward fun _ => (silent_define _ _).1
  refine guided_keyword (guided_dependencies.bind fun _ => ?_) ?_ (demands_keyword hdemands)
  · exact guided_keyword (guided_attachments.bind fun _ => hend) hend hdemands
  · exact guided_keyword (guided_attachments.bind fun _ => hend) hend hdemands

/-- A `create` statement, behind its keyword. -/
lemma guided_create :
    Guided c (fun b y x => ∀ w : Word "create", Delayed (w.token :: b) y x) create := by
  rw [create_eq]
  refine (guided_expectName _).bind fun name => ?_
  cases name with
  | none => exact guided_missing (by decide) (reads_recover _).forward
  | some name =>
    refine (guided_expectKeyword _ _).bind fun _ => (guided_origin.mono ?_).bind fun _ =>
      guided_createTail name
    rintro ts y x ⟨⟨files, rfl⟩, hopening, hclosing⟩ us hus vs hvs keyword
    obtain ⟨source, rfl⟩ := hus.reads (reads_expectKeyword _ _)
    obtain ⟨l, -, rfl⟩ := hvs.reads (reads_expectName _)
    exact .bracket keyword l source files ⟨y, List.mem_singleton.2 hopening⟩
      ⟨x, List.mem_singleton.2 hclosing⟩

/-- **Statements complain in time**, behind their keywords. -/
lemma guided_statement (kind : StatementKind) :
    Guided c (fun b y x => ∀ w : Word kind.word, Delayed (w.token :: b) y x) (statement kind) := by
  cases kind with
  | juliet => exact guided_juliet
  | policy => exact guided_policy
  | rubric => exact guided_rubric
  | cadence => exact guided_cadence
  | create => exact guided_create
  | extend => exact guided_extend
  | halt => exact guided_halt

/-! ## Behind the keyword -/

/-- At its keyword, a statement is checked as if the keyword had been expected. -/
lemma scriptItem_of_keyword {kind : StatementKind} {s : Checker}
    (h : StatementKind.ofToken? s.current = some kind) :
    scriptItem s = (expectWord kind.word (.expected kind.word) >>= fun _ => statement kind) s := by
  have hword : s.isAtWord kind.word = true := by
    simpa [Checker.isAtWord] using List.find?_some h
  rw [scriptItem, get_bind_apply, h, bind_apply, expectWord_apply, if_pos hword]
  rfl

/-- What is taken behind the keyword of a statement is taken with it in front. -/
lemma takes_behind_keyword (kind : StatementKind) (w : Word kind.word) {ts : List Token}
    (h : Takes (statement kind) () ts) : Takes scriptItem () (w.token :: ts) := by
  have htakes := (takes_expectWord w (.expected kind.word)).bind (f := fun _ => statement kind) h
  refine htakes.of_current fun s _ hcurrent => scriptItem_of_keyword ?_
  rw [hcurrent, ofToken?_word kind w]

/-- What is complained of behind the keyword of a statement is complained of with it in front. -/
lemma complains_behind_keyword (kind : StatementKind) (w : Word kind.word) {us : List Token}
    {t y : Token} (h : Complains (statement kind) (t :: us) y) :
    Complains scriptItem (w.token :: t :: us) y := by
  have hcomplains := (takes_expectWord w (.expected kind.word)).complains_cons
    (f := fun _ => statement kind) h
  refine hcomplains.of_current fun s _ hcurrent => scriptItem_of_keyword ?_
  rw [hcurrent, ofToken?_word kind w]

/-- **Statements complain in time.** -/
lemma guided_scriptItem : Guided c Delayed scriptItem := by
  have hguided : ∀ kind : StatementKind, Guided c Delayed
      (expectWord kind.word (.expected kind.word) >>= fun _ => statement kind) := by
    intro kind
    refine (guided_expectWord _ _).bind fun _ => (guided_statement kind).mono ?_
    rintro b y x h ts hts
    obtain ⟨w, rfl⟩ := hts.reads (reads_expectWord _ _)
    exact h w
  have hdemands : ∀ kind : StatementKind, Demands
      (expectWord kind.word (.expected kind.word) >>= fun _ => statement kind) :=
    fun kind => (demands_expectWord _ _).bind (reads_expectWord _ _).forward fun _ =>
      (reads_statement kind).forward
  refine ⟨reads_scriptItem.forward, fun hc => ?_, fun hc s hs => ?_⟩
  · let keyword : Word "halt" := ⟨⟨.identifier, "halt", default⟩, by decide⟩
    obtain ⟨⟨⟩, ts, hts⟩ := (guided_statement (c := c) .halt).takes hc
    exact ⟨(), _, takes_behind_keyword .halt keyword hts⟩
  · cases hkind : StatementKind.ofToken? s.current with
    | some kind =>
      refine ((hguided kind).outcome hc s hs).of_current (hdemands kind).not_takes_nil
        fun s' _ hsame => scriptItem_of_keyword ?_
      rw [hsame, hkind]
    | none =>
      have hcomplains := complains_reportCurrent_bind (f := fun _ => recoverStatement)
        (reads_recover _).forward
        "a top-level statement: juliet, policy, rubric, cadence, create, extend, or halt" s.current
      refine outcome_of_complains (hcomplains.of_current fun s' _ hsame => ?_)
      rw [scriptItem, get_bind_apply, hsame, hkind]

/-! ## What is blamed in the exceptions -/

/-- A spelled item of a cadence is taken. -/
lemma takes_cadenceItem {a : CadenceItem} {ts : List Token} (h : a.Spells ts)
    (hts : ∀ t ∈ ts, t.kind ≠ .eof) (seen : List String) :
    Takes (cadenceItem seen) (cadenceStep seen a) ts :=
  takes_of_run hts fun past rest _ reports _ _ =>
    ⟨_, _, _, _, cadenceItem_run h seen past rest reports, fun _ => isRemark_of_mem_cadenceItem⟩

/-- A spelled statement is taken. -/
lemma takes_scriptItem {st : Statement} {ts : List Token} (h : st.Spells ts)
    (hts : ∀ t ∈ ts, t.kind ≠ .eof) : Takes scriptItem () ts :=
  takes_of_run hts fun _ _ _ _ _ _ =>
    ⟨_, _, _, _, scriptItem_run h, fun _ => isRemark_of_mem_statement⟩

/-- A key that no equals sign follows is blamed in front of an item of a cadence. -/
lemma complains_cadenceItem (seen : List String) (key : Name) {next : Token}
    (hcompare : key.token.text ≠ "compare") (hkeep : key.token.text ≠ "keep")
    (hnext : next.kind ≠ .mark .equals) :
    Complains (cadenceItem seen) [key.token, next] key.token := by
  refine (complains_key seen key.kind_eq hnext).of_current fun s _ hcurrent => ?_
  rw [cadenceItem_eq, keyword_of_not_isAtWord, keyword_of_not_isAtWord]
  · simp [Checker.isAtWord, Token.isWord, hcurrent, hkeep]
  · simp [Checker.isAtWord, Token.isWord, hcurrent, hcompare]

/-- So it is behind some items.

**Proof sketch.** Induction on the items. Each is taken, and starts with an identifier, so the block
goes on. -/
lemma complains_cadenceItems {γ : Type} {close : List String → Check γ}
    (hclose : ∀ seen, Forward (close seen)) {items : List CadenceItem} {ts : List Token}
    (h : Sequence CadenceItem.Spells items ts) (hts : ∀ t ∈ ts, t.kind ≠ .eof) (key : Name)
    {next : Token} (hcompare : key.token.text ≠ "compare") (hkeep : key.token.text ≠ "keep")
    (hnext : next.kind ≠ .mark .equals) :
    ∀ seen, Complains (cadenceItems seen >>= close) (ts ++ [key.token] ++ [next]) key.token := by
  have hpasses := fun seen s hs => @passes_cadenceItem s seen hs
  induction h with
  | nil =>
    intro seen
    refine (complains_cadenceItem seen key hcompare hkeep hnext).block hpasses ?_ ?_
      (fun seen => (reads_cadenceItem seen).forward) hclose
    · rw [key.kind_eq]
      exact TokenKind.noConfusion
    · rw [key.kind_eq]
      exact TokenKind.noConfusion
  | cons hitem _ ih =>
    intro seen
    rw [List.forall_mem_append] at hts
    have htakes := takes_cadenceItem hitem hts.1 seen
    obtain ⟨t, us, rfl, hkind⟩ := cadenceItem_starts hitem
    have hbrace : t.kind ≠ .mark .closeBrace := by
      rw [hkind]
      exact TokenKind.noConfusion
    rw [List.append_assoc _ _ [key.token]]
    exact htakes.block_complains hpasses hbrace (ih hts.2 _)

/-- The opening bracket of an empty list of source files is blamed behind `from`. -/
lemma complains_origin (files : Word "julietArtifactSourceFiles") (opening : Punct .openBracket)
    (closing : Punct .closeBracket) :
    Complains origin [files.token, opening.token, closing.token] opening.token := by
  have hbracket := complains_bracket opening.kind_eq closing.kind_eq
  have hbehind := (takes_expectWord files (.expected "source files")).complains_cons
    (f := fun _ => sourceFiles) hbracket
  refine hbehind.of_current fun s _ hcurrent => ?_
  rw [origin, keyword_of_not_isAtWord, keyword_of_isAtWord _ "source files"]
  · rw [Checker.isAtWord, hcurrent, files.isWord]
  · simp [Checker.isAtWord, Token.isWord, hcurrent]

/-- **What is blamed in the exceptions** is the token in front of the one that cannot stand
there. -/
lemma complains_of_delayed {us : List Token} {y x : Token} (h : Delayed us y x)
    (hus : ∀ t ∈ us, t.kind ≠ .eof) : Complains scriptItem (us ++ [y] ++ [x]) y := by
  cases h with
  | @key items ts _ keyword name opening key hitems hcompare hkeep hnext =>
    have hclosing := closing_expectMark_bind .closeBrace "'\x7d' to close cadence block"
      fun seen => (silent_requireCountKeys name.token seen).1
    have hblock := complains_cadenceItems hclosing.forward hitems (fun t ht => hus t (by simp [ht]))
      key hcompare hkeep hnext []
    have hcadence : Complains cadence
        (name.token :: opening.token :: ts ++ [key.token] ++ [x]) key.token := by
      refine Takes.complains_cons (takes_expect (by decide) name.kind_mem _) ?_
      refine Silent.complains (silent_define _ _) ?_
      exact Takes.complains (takes_expectMark opening _) hblock
    exact complains_behind_keyword .cadence keyword hcadence
  | bracket keyword name source files opening closing =>
    have hcreate : Complains create
        [name.token, source.token, files.token, opening.token, closing.token] opening.token := by
      refine Takes.complains_cons (takes_expect (by decide) name.kind_mem _) ?_
      refine Takes.complains_cons (takes_expectKeyword source _) ?_
      exact (complains_origin files opening closing).bind
        (guided_origin (c := True)).forward
        fun _ => (guided_createTail (c := True) (E := never) name.token).forward
    exact complains_behind_keyword .create keyword hcreate

end Check

end WorkflowLint
