import WorkflowLint.Proofs.Recovery
import WorkflowLint.Proofs.Simulation

/-!
# Statements without a name

Where a statement has something else in the place of its name, the check complains about that and
leaves the statement behind. It does not read on to the end of the statement, but to the first
semicolon or the first keyword of a statement. Inside a statement both may come earlier: `juliet` in
front of a prompt, the target `rubric` of an `extend`, a name that is spelled like a keyword, the
semicolons of attachments. There the rest of the statement is taken for another one.

## Main definitions

* `WorkflowLint.Grammar.Statement.Contained` — nothing inside a statement stops the recovery.
* `WorkflowLint.Check.WantsName` — the statements that end with a semicolon and have a name.
* `WorkflowLint.Check.Recovers` — what the recovery passes, and what it leaves.

## Main results

* `WorkflowLint.Check.exists_recovers` — the recovery stops at the first token that stops it.
* `WorkflowLint.Check.WantsName.exists_init` — which statements are contained, token by token.
* `WorkflowLint.Check.nameless_statement_left` — a statement without a name costs one report, and
  it is left as a whole exactly if it is contained.
-/

set_option autoImplicit false

namespace WorkflowLint

open Grammar

/-- Nothing inside the statement stops the recovery: no keyword of a statement, and no semicolon
but the last. So it is with every policy; with an artifact that is made from source files, uses
none that is named like a keyword, and has no attachments; and with an extension of a target that
is not named like a keyword. -/
def Grammar.Statement.Contained : Statement → Prop
  | .policy _ _ => True
  | .create _ (.files _ _) uses [] => ∀ n ∈ uses, StatementKind.ofToken? n.token = none
  | .extend _ target _ => StatementKind.ofToken? target.token = none
  | _ => False

namespace Check

variable {s : Checker} {front left rest : List Token}

/-! ## What the recovery passes -/

/-- The tokens `ts` do not stop a recovery. -/
def Passed (ts : List Token) : Prop := ∀ t ∈ ts, endsStatement t = false

lemma passed_append_iff {ts us : List Token} : Passed (ts ++ us) ↔ Passed ts ∧ Passed us :=
  List.forall_mem_append

lemma passed_cons_iff {t : Token} {ts : List Token} :
    Passed (t :: ts) ↔ endsStatement t = false ∧ Passed ts :=
  List.forall_mem_cons

@[simp] lemma passed_nil : Passed [] := by simp [Passed]

/-- In front of `front ++ left` the recovery passes `front`: everything up to the first semicolon,
and that, or everything up to the first keyword of a statement if there is none before. -/
inductive Recovers : List Token → List Token → Prop
  | semicolon {garbage : List Token} {t : Token} (left : List Token)
      (hgarbage : Passed garbage) (ht : t.kind = .mark .semicolon) : Recovers (garbage ++ [t]) left
  | keyword {garbage : List Token} {t : Token} (left : List Token)
      (hgarbage : Passed garbage) (ht : (StatementKind.ofToken? t).isSome) :
      Recovers garbage (t :: left)

/-- A keyword is an identifier. -/
lemma kind_of_isSome_ofToken? {t : Token} (h : (StatementKind.ofToken? t).isSome) :
    t.kind = .identifier := by
  by_contra hkind
  rw [ofToken?_eq_none fun kind => isWord_eq_false_of_kind hkind _] at h
  exact Bool.noConfusion h

namespace Recovers

/-- What does not stop the recovery is passed. -/
lemma cons {t : Token} (ht : endsStatement t = false) (h : Recovers front left) :
    Recovers (t :: front) left := by
  cases h with
  | semicolon _ hgarbage hkind => exact .semicolon left (passed_cons_iff.2 ⟨ht, hgarbage⟩) hkind
  | keyword left hgarbage hword => exact .keyword left (passed_cons_iff.2 ⟨ht, hgarbage⟩) hword

/-- A complaint and the recovery behind it. -/
lemma reportCurrent_recoverStatement (h : Recovers front left)
    (hahead : s.ahead = front ++ (left ++ rest)) (complaint : Finding) :
    (reportCurrent complaint >>= fun _ => recoverStatement) s =
      ((), s.leave front (left ++ rest) complaint) := by
  cases h with
  | @semicolon garbage t _ hgarbage hkind =>
    rw [List.append_assoc] at hahead
    exact reportCurrent_recover complaint hahead hgarbage (by simp [endsStatement, hkind]) hkind
  | @keyword _ t left hgarbage hword =>
    have hkind : t.kind ≠ .mark .semicolon := by
      rw [kind_of_isSome_ofToken? hword]
      exact TokenKind.noConfusion
    have hrun := recover_of_keyword (s := (reportCurrent complaint s).2) hahead hgarbage
      (by simp [endsStatement, hword]) hkind
    rw [bind_apply, recoverStatement, hrun]
    rfl

/-- **The recovery passes a stretch with a semicolon at its end** exactly if nothing in front of
that stops it. -/
lemma left_eq_nil_iff {init : List Token} {semicolon : Token} (h : Recovers front left)
    (hinit : init ++ [semicolon] = front ++ left) (hkind : semicolon.kind = .mark .semicolon) :
    left = [] ↔ Passed init := by
  cases h with
  | @semicolon garbage t _ hgarbage ht =>
    constructor
    · rintro rfl
      rw [List.append_nil] at hinit
      obtain ⟨rfl, -⟩ := List.append_inj' hinit rfl
      exact hgarbage
    · intro hpassed
      by_contra hleft
      -- the semicolon that stopped the recovery would be one of `init`
      obtain ⟨left, u, rfl⟩ : ∃ ts u, left = ts ++ [u] :=
        ⟨_, _, (List.dropLast_concat_getLast hleft).symm⟩
      rw [← List.append_assoc] at hinit
      obtain ⟨rfl, -⟩ := List.append_inj' hinit rfl
      have hstops := hpassed t (by simp)
      exact (endsStatement_eq_false_iff.1 hstops).1 ht
  | @keyword _ t left hgarbage ht =>
    refine ⟨fun hnil => absurd hnil (List.cons_ne_nil t left), fun hpassed => ?_⟩
    have hmem : t ∈ init ++ [semicolon] := by simp [hinit]
    rcases List.mem_append.1 hmem with hmem | hmem
    · rw [(endsStatement_eq_false_iff.1 (hpassed t hmem)).2] at ht
      exact Bool.noConfusion ht
    · rw [List.mem_singleton.1 hmem] at ht
      rw [kind_of_isSome_ofToken? ht] at hkind
      exact TokenKind.noConfusion hkind

end Recovers

/-- **The recovery stops at the first token that stops it.** -/
lemma exists_recovers {ts : List Token} {t : Token} (ht : t ∈ ts) (hstop : endsStatement t = true) :
    ∃ front left, ts = front ++ left ∧ Recovers front left := by
  induction ts with
  | nil => cases ht
  | cons u us ih =>
    by_cases hu : endsStatement u = true
    · by_cases hkind : u.kind = .mark .semicolon
      · exact ⟨[] ++ [u], us, rfl, .semicolon us passed_nil hkind⟩
      · have hword : (StatementKind.ofToken? u).isSome := by
          simpa [endsStatement, hkind] using hu
        exact ⟨[], u :: us, rfl, .keyword us passed_nil hword⟩
    · rw [Bool.not_eq_true] at hu
      have hmem : t ∈ us := by
        rcases List.mem_cons.1 ht with rfl | hmem
        · rw [hu] at hstop
          exact Bool.noConfusion hstop
        · exact hmem
      obtain ⟨front, left, rfl, h⟩ := ih hmem
      exact ⟨u :: front, left, rfl, h.cons hu⟩

/-! ## What stops the recovery inside a statement -/

/-- A token that is no identifier stops the recovery only if it is a semicolon. -/
lemma endsStatement_of_kind {t : Token} (h : t.kind ≠ .identifier)
    (hkind : t.kind ≠ .mark .semicolon) : endsStatement t = false :=
  endsStatement_eq_false_iff.2 ⟨hkind, ofToken?_eq_none fun _ => isWord_eq_false_of_kind h _⟩

@[simp] lemma endsStatement_punct {m : Mark} (l : Punct m) :
    endsStatement l.token = decide (m = .semicolon) := by
  rw [endsStatement, ofToken?_eq_none fun _ => isWord_eq_false_of_kind (by simp) _, l.kind_eq]
  cases m <;> rfl

@[simp] lemma endsStatement_quoted (l : Quoted) : endsStatement l.token = false :=
  endsStatement_of_kind (by simp) (by simp)

@[simp] lemma endsStatement_literal (l : Literal) : endsStatement l.token = false := by
  have hkind : l.token.kind = .string ∨ l.token.kind = .blockString := by
    simpa [TokenKind.literals] using l.kind_mem
  exact endsStatement_of_kind (by rcases hkind with h | h <;> simp [h])
    (by rcases hkind with h | h <;> simp [h])

/-- A name stops the recovery only if it is spelled like a keyword. -/
@[simp] lemma endsStatement_name (n : Name) :
    endsStatement n.token = (StatementKind.ofToken? n.token).isSome := by
  simp [endsStatement]

/-- A word that is no keyword of a statement is passed. -/
lemma endsStatement_word {word : String} (w : Word word)
    (h : ∀ kind : StatementKind, kind.word ≠ word) : endsStatement w.token = false := by
  refine endsStatement_eq_false_iff.2 ⟨by simp, ofToken?_eq_none fun kind => ?_⟩
  simp [Token.isWord, (h kind).symm]

lemma passed_commas_iff {kinds : List TokenKind} {as : List (Leaf kinds)} {ts : List Token}
    (h : Commas as ts) : Passed ts ↔ ∀ a ∈ as, endsStatement a.token = false := by
  induction h with
  | last a => simp [Passed]
  | cons a comma _ ih => simp [passed_cons_iff, ih]

lemma passed_bracketed_iff {kinds : List TokenKind} {as : List (Leaf kinds)} {ts : List Token}
    (h : Bracketed as ts) : Passed ts ↔ ∀ a ∈ as, endsStatement a.token = false := by
  cases h with
  | empty opening closing => simp [passed_cons_iff]
  | filled opening closing hts =>
    simp [passed_cons_iff, passed_append_iff, passed_commas_iff hts]

/-- Source files do not stop the recovery; a prompt stands behind a keyword. -/
lemma passed_origin_iff {origin : Origin} {ts : List Token} (h : origin.Spells ts) :
    Passed ts ↔ ∃ first more, origin = .files first more := by
  cases h with
  | prompt keyword text =>
    have hstops : endsStatement keyword.token = true := by
      rw [endsStatement, ofToken?_word .juliet keyword]
      simp
    simp [passed_cons_iff, hstops]
  | files keyword opening closing hts =>
    have hkeyword : endsStatement keyword.token = false :=
      endsStatement_word keyword fun kind => by cases kind <;> decide
    simp [passed_cons_iff, passed_append_iff, passed_commas_iff hts, hkeyword]

lemma passed_uses_iff {uses : List Name} {ts : List Token} (h : UsesSpelled uses ts) :
    Passed ts ↔ ∀ n ∈ uses, StatementKind.ofToken? n.token = none := by
  cases h with
  | absent => simp
  | given keyword hts =>
    have hkeyword : endsStatement keyword.token = false :=
      endsStatement_word keyword fun kind => by cases kind <;> decide
    simp [passed_cons_iff, passed_bracketed_iff hts, hkeyword]

/-- An attachment ends with a semicolon. -/
lemma passed_attachments_iff {as : List (Assignment attachmentValue)} {ts : List Token}
    (h : AttachmentsSpelled as ts) : Passed ts ↔ as = [] := by
  cases h with
  | absent => simp
  | given keyword opening closing hts =>
    have hkeyword : endsStatement keyword.token = false :=
      endsStatement_word keyword fun kind => by cases kind <;> decide
    cases hts with
    | nil => simp [passed_cons_iff, hkeyword]
    | cons ha _ =>
      cases ha with
      | mk equals semicolon => simp [passed_cons_iff]

lemma contained_create_iff {name : Name} {origin : Origin} {uses : List Name}
    {attachments : List (Assignment attachmentValue)} :
    (Statement.create name origin uses attachments).Contained ↔
      (∃ first more, origin = .files first more) ∧
        (∀ n ∈ uses, StatementKind.ofToken? n.token = none) ∧ attachments = [] := by
  cases origin <;> cases attachments <;> simp [Statement.Contained]

/-! ## Statements that want a name -/

/-- `WantsName st kind what`: the statement `st` is of the given kind, ends with a semicolon, and
has a name; where the name is missing, the check asks for `what`. -/
inductive WantsName : Statement → StatementKind → String → Prop
  | policy (name : Name) (body : Literal) : WantsName (.policy name body) .policy "policy name"
  | create (name : Name) (origin : Origin) (uses : List Name)
      (attachments : List (Assignment attachmentValue)) :
      WantsName (.create name origin uses attachments) .create "artifact name after 'create'"
  | extend (artifact target : Name) (text : Literal) :
      WantsName (.extend artifact target text) .extend "artifact name after 'extend'"

/-- A statement that begins with a name is left behind if there is none. -/
lemma named_of_stray {what : String} {f : Option Token → Check Unit}
    (hnone : f none = recoverStatement) (hstray : s.current.kind ≠ .identifier) :
    (expectName what >>= f) s =
      (reportCurrent (.expected what) >>= fun _ => recoverStatement) s := by
  have hname : s.isAt [.identifier] = false := by simpa [Checker.isAt] using hstray
  rw [bind_apply, expectName, expect_apply, hname, if_neg (by simp), hnone]
  rfl

namespace WantsName

variable {st : Statement} {kind : StatementKind} {what : String}

/-- Without a name, the check of the statement complains and recovers. -/
lemma statement_of_stray (h : WantsName st kind what) (hstray : s.current.kind ≠ .identifier) :
    statement kind s = (reportCurrent (.expected what) >>= fun _ => recoverStatement) s := by
  cases h with
  | policy => exact named_of_stray rfl hstray
  | create => exact named_of_stray rfl hstray
  | extend => exact named_of_stray rfl hstray

/-- A round over a script in front of such a statement: the keyword is passed, something else stands
in the place of the name, and the recovery begins there. -/
lemma scriptItem_of_stray (h : WantsName st kind what) {keyword stray : Token}
    (hkeyword : StatementKind.ofToken? keyword = some kind) (hname : stray.kind ≠ .identifier)
    (hkind : stray.kind ≠ .mark .semicolon) (hrecovers : Recovers front left)
    (hahead : s.ahead = keyword :: stray :: (front ++ (left ++ rest))) :
    scriptItem s = ((), { s with
      past := (keyword :: stray :: front).reverse ++ s.past
      ahead := left ++ rest
      reports := ⟨.expected what, stray.range⟩ :: s.reports }) := by
  obtain ⟨past, _, eof, reports, definitions, seen⟩ := s
  obtain rfl := hahead
  have hpassed : endsStatement stray = false := endsStatement_of_kind hname hkind
  have hbegun : (⟨keyword :: past, stray :: (front ++ (left ++ rest)), eof, reports, definitions,
      seen⟩ : Checker).ahead = stray :: front ++ (left ++ rest) := rfl
  have hrun := (hrecovers.cons hpassed).reportCurrent_recoverStatement hbegun (.expected what)
  rw [← h.statement_of_stray (by simpa using hname)] at hrun
  rw [scriptItem, get_bind_apply]
  simp only [Checker.current_cons, hkeyword, bind_apply, discard_apply, advance_apply,
    Checker.skip_cons]
  simpa [Checker.leave] using hrun

/-- **Which statements are contained, token by token.** The statement is its keyword, its name and
tokens of which the last is a semicolon; the others are passed exactly if it is contained. -/
lemma exists_init (h : WantsName st kind what) {keyword name : Token} {body : List Token}
    (hspells : st.Spells (keyword :: name :: body)) :
    StatementKind.ofToken? keyword = some kind ∧
      ∃ init semicolon, body = init ++ [semicolon] ∧ semicolon.kind = .mark .semicolon ∧
        (Passed init ↔ st.Contained) := by
  generalize hts : keyword :: name :: body = ts at hspells
  cases h with
  | policy _ text =>
    cases hspells with
    | policy keyword _ equals _ semicolon =>
      obtain ⟨rfl, -, rfl⟩ : _ ∧ _ ∧ _ := by simpa using hts
      refine ⟨ofToken?_word .policy keyword, [equals.token, text.token], semicolon.token, rfl,
        semicolon.kind_eq, ?_⟩
      simp [passed_cons_iff, Statement.Contained]
  | create =>
    cases hspells with
    | @create _ _ _ os us ws keyword _ source semicolon hos hus hws =>
      obtain ⟨rfl, -, rfl⟩ : _ ∧ _ ∧ _ := by simpa using hts
      have hsource : endsStatement source.token = false :=
        endsStatement_word source fun kind => by cases kind <;> decide
      refine ⟨ofToken?_word .create keyword, source.token :: (os ++ (us ++ ws)), semicolon.token,
        by simp, semicolon.kind_eq, ?_⟩
      rw [contained_create_iff, passed_cons_iff, passed_append_iff, passed_append_iff,
        passed_origin_iff hos, passed_uses_iff hus, passed_attachments_iff hws]
      simp [hsource]
  | extend _ target text =>
    cases hspells with
    | extend keyword _ dot _ joint _ semicolon =>
      obtain ⟨rfl, -, rfl⟩ : _ ∧ _ ∧ _ := by simpa using hts
      have hjoint : endsStatement joint.token = false :=
        endsStatement_word joint fun kind => by cases kind <;> decide
      refine ⟨ofToken?_word .extend keyword,
        [dot.token, target.token, joint.token, text.token], semicolon.token, rfl,
        semicolon.kind_eq, ?_⟩
      simp [passed_cons_iff, hjoint, Statement.Contained]

end WantsName

/-! ## The main result -/

/-- **A statement without a name is left behind up to the first token that stops the recovery.** Let
a string or a number stand in the place of the name of a policy, of an artifact that is created, or
of an artifact that is extended. Whatever stands behind the statement, one report is made, which asks
for the name and is about that token; the tables and the `juliet` flag stay as they are; and the
check of the script goes on behind the first semicolon of the statement, or at the first keyword of
a statement that comes before. That is behind the statement as a whole exactly if the statement is
contained.

**Proof sketch.** The statement ends with a semicolon, so the recovery stops inside it. It stops at
the end exactly if nothing in front of that stops it; and which tokens do is read off the grammar. -/
theorem nameless_statement_left {st : Statement} {kind : StatementKind} {what : String}
    {keyword name stray : Token} {body : List Token} (hst : WantsName st kind what)
    (hspells : st.Spells (keyword :: name :: body))
    (hstray : stray.kind ∈ [.string, .blockString, .number])
    (hahead : s.ahead = keyword :: stray :: body ++ rest) :
    ∃ front left, body = front ++ left ∧ Recovers front left ∧ (left = [] ↔ st.Contained) ∧
      let behind : Checker := { s with
        past := (keyword :: stray :: front).reverse ++ s.past
        ahead := left ++ rest
        reports := ⟨.expected what, stray.range⟩ :: s.reports }
      scriptItem s = ((), behind) ∧ script s = script behind := by
  obtain ⟨hkeyword, init, semicolon, rfl, hkind, hcontained⟩ := hst.exists_init hspells
  have hstop : endsStatement semicolon = true := by simp [endsStatement, hkind]
  have hlast : semicolon ∈ init ++ [semicolon] := by simp
  obtain ⟨front, left, hbody, hrecovers⟩ := exists_recovers hlast hstop
  refine ⟨front, left, hbody, hrecovers,
    (hrecovers.left_eq_nil_iff hbody hkind).trans hcontained, ?_⟩
  intro behind
  have hkinds : stray.kind ≠ .identifier ∧ stray.kind ≠ .mark .semicolon := by
    constructor <;> rintro heq <;> rw [heq] at hstray <;> exact absurd hstray (by decide)
  have hitem : scriptItem s = ((), behind) :=
    hst.scriptItem_of_stray hkeyword hkinds.1 hkinds.2 hrecovers (by simp [hahead, hbody])
  have hgo : s.atEnd = false := by simp [Checker.atEnd, hahead]
  have hlt : behind.ahead.length < s.ahead.length := by
    rw [hahead, hbody]
    simp only [behind, List.length_append, List.length_cons]
    omega
  refine ⟨hitem, ?_⟩
  rw [script_apply s, hitem, hgo, if_neg (by simp), if_pos hlt]

/-- A number in the place of the name of a policy: the check goes on with the `halt` behind it. -/
theorem nameless_statement_left_policy :
    let s : Checker := .ofTokenized (tokenize "policy 5 = \"x\"; halt;")
    (scriptItem s).2.ahead = [⟨.identifier, "halt", ⟨⟨0, 16⟩, ⟨0, 20⟩⟩⟩,
        ⟨.mark .semicolon, ";", ⟨⟨0, 20⟩, ⟨0, 21⟩⟩⟩] ∧
      (scriptItem s).2.reported = [⟨.expected "policy name", ⟨⟨0, 7⟩, ⟨0, 8⟩⟩⟩] := by
  intro s
  let keyword : Word "policy" := ⟨⟨.identifier, "policy", ⟨⟨0, 0⟩, ⟨0, 6⟩⟩⟩, by decide⟩
  let name : Name := ⟨⟨.identifier, "p", ⟨⟨0, 7⟩, ⟨0, 8⟩⟩⟩, by decide⟩
  let equals : Punct .equals := ⟨⟨.mark .equals, "=", ⟨⟨0, 9⟩, ⟨0, 10⟩⟩⟩, by decide⟩
  let text : Literal := ⟨⟨.string, "x", ⟨⟨0, 11⟩, ⟨0, 14⟩⟩⟩, by decide⟩
  let semicolon : Punct .semicolon := ⟨⟨.mark .semicolon, ";", ⟨⟨0, 14⟩, ⟨0, 15⟩⟩⟩, by decide⟩
  let stray : Token := ⟨.number, "5", ⟨⟨0, 7⟩, ⟨0, 8⟩⟩⟩
  have hahead : s.ahead =
      keyword.token :: stray :: [equals.token, text.token, semicolon.token] ++
        [⟨.identifier, "halt", ⟨⟨0, 16⟩, ⟨0, 20⟩⟩⟩, ⟨.mark .semicolon, ";", ⟨⟨0, 20⟩, ⟨0, 21⟩⟩⟩] := by
    decide +kernel
  obtain ⟨front, left, -, -, hleft, hitem, -⟩ := nameless_statement_left (.policy name text)
    (.policy keyword name equals text semicolon) (by decide) hahead
  have hreports : s.reports = [] := by decide +kernel
  rw [hitem, hleft.2 trivial, hreports]
  exact ⟨rfl, rfl⟩

/-- **Not every statement without a name is left as a whole.** Behind a string in the place of an
artifact's name, the `juliet` in front of the prompt is taken for a block of its own: it is
remembered, and it is reported that it does not go on like one. -/
theorem nameless_create_taken_for_juliet :
    ∃ (st : Statement) (keyword name stray : Token) (body : List Token),
      let s : Checker := .ofTokenized (tokenize "create \"x\" from juliet \"p\";")
      WantsName st .create "artifact name after 'create'" ∧ st.Spells (keyword :: name :: body) ∧
        stray.kind = .string ∧ s.ahead = keyword :: stray :: body ∧ (scriptItem s).2.ahead ≠ [] ∧
        (finish s).reported.length ≠ 1 ∧ (finish s).julietSeen ≠ s.julietSeen := by
  let keyword : Word "create" := ⟨⟨.identifier, "create", ⟨⟨0, 0⟩, ⟨0, 6⟩⟩⟩, by decide⟩
  let name : Name := ⟨⟨.identifier, "x", ⟨⟨0, 7⟩, ⟨0, 10⟩⟩⟩, by decide⟩
  let source : Word "from" := ⟨⟨.identifier, "from", ⟨⟨0, 11⟩, ⟨0, 15⟩⟩⟩, by decide⟩
  let juliet : Word "juliet" := ⟨⟨.identifier, "juliet", ⟨⟨0, 16⟩, ⟨0, 22⟩⟩⟩, by decide⟩
  let prompt : Literal := ⟨⟨.string, "p", ⟨⟨0, 23⟩, ⟨0, 26⟩⟩⟩, by decide⟩
  let semicolon : Punct .semicolon := ⟨⟨.mark .semicolon, ";", ⟨⟨0, 26⟩, ⟨0, 27⟩⟩⟩, by decide⟩
  exact ⟨.create name (.prompt prompt) [] [], keyword.token, name.token,
    ⟨.string, "x", ⟨⟨0, 7⟩, ⟨0, 10⟩⟩⟩,
    [source.token, juliet.token, prompt.token, semicolon.token], .create name _ _ _,
    .create keyword name source semicolon (.prompt juliet prompt) .absent .absent, rfl,
    by decide +kernel, by decide +kernel, by decide +kernel, by decide +kernel⟩

end Check

end WorkflowLint
