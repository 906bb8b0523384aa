import WorkflowLint.Proofs.Continuation

/-!
# What checks say

Whatever a check reports is about one token of its script, and says nothing but fixed words and the
text of this token. A name is quoted only if the token is a name, so it is one line; but where a
check compares literals, it quotes them as they are.

## Design

An invariant of states, `Checker.Accounted`, is kept by every building block. Unlike a coupling, it
knows what the complaints are, and what a computation answers: that a key is an identifier, that the
tiebreakers of a rubric are literals.

## Main definitions

* `WorkflowLint.IsLine` — a text without line feeds.
* `WorkflowLint.Says` — what is said about a token.
* `WorkflowLint.Checker.Accounted` — all that has been reported is said about tokens.
* `WorkflowLint.Check.Accounts` — a computation that keeps this, and what it answers.

## Main results

* `WorkflowLint.Check.accounts_untilClosed`, `WorkflowLint.Check.accounts_listed` — loops.
* `WorkflowLint.Check.accounts_script` — scripts.
* `WorkflowLint.says_of_mem_lint` — what is said about a script.
-/

set_option autoImplicit false

namespace WorkflowLint

/-! ## What is said about a token -/

/-- A text without line feeds. -/
def IsLine (s : String) : Prop := '\n' ∉ s.toList

instance (s : String) : Decidable (IsLine s) := inferInstanceAs (Decidable ('\n' ∉ s.toList))

/-- What is said about a token. Names and literals that are mentioned are the text of the token. -/
inductive Says (t : Token) : Finding → Prop
  | expected {what : String} (h : IsLine what) : Says t (.expected what)
  | duplicateJuliet : Says t .duplicateJuliet
  | unknownJulietKey (h : t.kind = .identifier) : Says t (.unknownJulietKey t.text)
  | duplicateDefinition (kind : SymbolKind) (h : t.kind = .identifier) :
      Says t (.duplicateDefinition kind t.text)
  | nonPositivePoints : Says t .nonPositivePoints
  | emptyMeaning : Says t .emptyMeaning
  | unmatchedTiebreaker (h : t.kind ∈ TokenKind.literals) : Says t (.unmatchedTiebreaker t.text)
  | missingCadenceKey {key : String} (h : key ∈ words) : Says t (.missingCadenceKey key)
  | nonPositiveKeep : Says t .nonPositiveKeep
  | nonPositiveCount {key : String} (h : key ∈ words) : Says t (.nonPositiveCount key)
  | unknownCadenceKey (h : t.kind = .identifier) : Says t (.unknownCadenceKey t.text)
  | duplicateSourcePath (h : t.kind = .string) : Says t (.duplicateSourcePath t.text)
  | duplicateAttachment (h : t.kind = .identifier) : Says t (.duplicateAttachment t.text)
  | unknownAttachmentKey (h : t.kind = .identifier) : Says t (.unknownAttachmentKey t.text)
  | unresolved (kind : SymbolKind) {site : ReferenceSite}
      (hsite : ∀ key, site = .attachment key → key ∈ words) (h : t.kind = .identifier) :
      Says t (.unresolved kind t.text site)
  | unsupportedExtendTarget : Says t .unsupportedExtendTarget

/-- A text that is written out is looked at character by character. -/
lemma IsLine.ofList {cs : List Char} (h : cs.contains '\n' = false) :
    IsLine (String.ofList cs) := by
  rw [IsLine, String.toList_ofList]
  simpa using h

/-- The words that checks look for are lines. -/
lemma isLine_of_mem_words : ∀ w ∈ words, IsLine w := by decide

lemma IsLine.append {s s' : String} (h : IsLine s) (h' : IsLine s') : IsLine (s ++ s') := by
  rw [IsLine, String.toList_append, List.mem_append, not_or]
  exact ⟨h, h'⟩

/-! ## States and computations -/

/-- The tokens of a state are in `stream`, and what has been reported is in `earlier` or is said
about one of them. -/
structure Checker.Accounted (stream : List Token) (earlier : List Diagnostic) (s : Checker) :
    Prop where
  past : ∀ t ∈ s.past, t ∈ stream
  ahead : ∀ t ∈ s.ahead, t ∈ stream
  eof : s.eof ∈ stream
  reports : ∀ d ∈ s.reports, d ∈ earlier ∨ ∃ t ∈ stream, d.range = t.range ∧ Says t d.finding

variable {stream : List Token} {earlier : List Diagnostic} {α β : Type}

namespace Checker.Accounted

variable {s : Checker}

lemma current_mem (h : s.Accounted stream earlier) : s.current ∈ stream := by
  obtain ⟨past, ahead, eof, reports, definitions, seen⟩ := s
  cases ahead with
  | nil => exact h.eof
  | cons t ts => exact h.ahead t List.mem_cons_self

lemma previous_mem (h : s.Accounted stream earlier) : s.previous ∈ stream := by
  obtain ⟨past, ahead, eof, reports, definitions, seen⟩ := s
  cases past with
  | nil => exact h.current_mem
  | cons t ts => exact h.past t List.mem_cons_self

lemma skipWhile (h : s.Accounted stream earlier) (p : Token → Bool) :
    (s.skipWhile p).Accounted stream earlier where
  past t ht := by
    rcases List.mem_append.1 ht with ht | ht
    · exact h.ahead t ((List.takeWhile_prefix p).subset (List.mem_reverse.1 ht))
    · exact h.past t ht
  ahead t ht := h.ahead t ((List.dropWhile_suffix p).subset ht)
  eof := h.eof
  reports := h.reports

lemma skip (h : s.Accounted stream earlier) : s.skip.Accounted stream earlier := by
  obtain ⟨past, ahead, eof, reports, definitions, seen⟩ := s
  cases ahead with
  | nil => exact h
  | cons t ts =>
    refine ⟨?_, fun t' ht' => h.ahead t' (List.mem_cons_of_mem _ ht'), h.eof, h.reports⟩
    exact List.forall_mem_cons.2 ⟨h.ahead t List.mem_cons_self, h.past⟩

lemma report (h : s.Accounted stream earlier) {f : Finding} {t : Token} (ht : t ∈ stream)
    (hf : Says t f) : (Check.report f t s).2.Accounted stream earlier :=
  ⟨h.past, h.ahead, h.eof, List.forall_mem_cons.2 ⟨.inr ⟨t, ht, rfl, hf⟩, h.reports⟩⟩

end Checker.Accounted

namespace Check

open Checker

/-- From the state `s`, everything stays accounted for, and the answer is as `P` has it. -/
def AccountsAt (stream : List Token) (earlier : List Diagnostic) (m : Check α) (P : α → Prop)
    (s : Checker) : Prop :=
  s.Accounted stream earlier → (m s).2.Accounted stream earlier ∧ P (m s).1

/-- The same from every state. -/
def Accounts (stream : List Token) (earlier : List Diagnostic) (m : Check α) (P : α → Prop) :
    Prop :=
  ∀ s, AccountsAt stream earlier m P s

/-- The answer does not matter. -/
def Anything (_ : α) : Prop := True

/-- A token that has been asked for is one of the stream, of the kind that was asked for. -/
def Asked (stream : List Token) (kinds : List TokenKind) (answer : Option Token) : Prop :=
  ∀ t ∈ answer, t ∈ stream ∧ t.kind ∈ kinds

/-! ## Composition -/

lemma accounts_pure {P : α → Prop} {a : α} (h : P a) : Accounts stream earlier (pure a) P :=
  fun _ hs => ⟨hs, h⟩

/-- **Sequencing.** -/
lemma Accounts.bind {m : Check α} {f : α → Check β} {P : α → Prop} {Q : β → Prop}
    (hm : Accounts stream earlier m P) (hf : ∀ a, P a → Accounts stream earlier (f a) Q) :
    Accounts stream earlier (m >>= f) Q := by
  intro s hs
  obtain ⟨hs', ha⟩ := hm s hs
  exact hf _ ha _ hs'

lemma Accounts.discard {m : Check α} {P : α → Prop} (hm : Accounts stream earlier m P) :
    Accounts stream earlier (discard m : Check PUnit) Anything :=
  fun s hs => ⟨(hm s hs).1, trivial⟩

lemma accounts_get_bind {f : Checker → Check β} {Q : β → Prop}
    (hf : ∀ r : Checker, r.Accounted stream earlier → Accounts stream earlier (f r) Q) :
    Accounts stream earlier (get >>= f) Q :=
  fun s hs => hf s hs s hs

lemma accounts_ite {c : Prop} [Decidable c] {m n : Check α} {P : α → Prop}
    (hm : c → Accounts stream earlier m P) (hn : ¬ c → Accounts stream earlier n P) :
    Accounts stream earlier (if c then m else n) P := by
  split
  · exact hm ‹_›
  · exact hn ‹_›

/-- A finding that is reported under a condition, in front of `k`. -/
lemma accounts_when {c : Prop} [Decidable c] {m : Check Unit} {k : Unit → Check β} {P : Unit → Prop}
    {Q : β → Prop} (hm : Accounts stream earlier m P) (hk : Accounts stream earlier (k ()) Q) :
    Accounts stream earlier (if c then m >>= k else k ()) Q :=
  accounts_ite (fun _ => hm.bind fun _ _ => hk) fun _ => hk

/-- A finding that is reported unless a condition holds, in front of `k`. -/
lemma accounts_unless {c : Prop} [Decidable c] {m : Check Unit} {k : Unit → Check β}
    {P : Unit → Prop} {Q : β → Prop} (hm : Accounts stream earlier m P)
    (hk : Accounts stream earlier (k ()) Q) :
    Accounts stream earlier (if c then k () else m >>= k) Q :=
  accounts_ite (fun _ => hk) fun _ => hm.bind fun _ _ => hk

/-! ## Building blocks -/

lemma accounts_report {f : Finding} {t : Token} (ht : t ∈ stream) (hf : Says t f) :
    Accounts stream earlier (report f t) Anything :=
  fun _ hs => ⟨hs.report ht hf, trivial⟩

/-- A complaint in fixed words. -/
lemma accounts_reportCurrent {what : String} (hwhat : IsLine what) :
    Accounts stream earlier (reportCurrent (.expected what)) Anything :=
  fun _ hs => ⟨hs.report hs.current_mem (.expected hwhat), trivial⟩

lemma accounts_advance : Accounts stream earlier (discard advance) Anything :=
  fun _ hs => ⟨hs.skip, trivial⟩

lemma accounts_accept (kind : TokenKind) : Accounts stream earlier (accept kind) Anything := by
  intro s hs
  rw [accept_apply]
  split
  · exact ⟨hs.skip, trivial⟩
  · exact ⟨hs, trivial⟩

lemma accounts_acceptWord (word : String) :
    Accounts stream earlier (acceptWord word) Anything := by
  intro s hs
  rw [acceptWord_apply]
  split
  · exact ⟨hs.skip, trivial⟩
  · exact ⟨hs, trivial⟩

/-- **What is asked for is there**, or else a line is reported. -/
lemma accounts_expect (kinds : List TokenKind) {what : String} (hwhat : IsLine what) :
    Accounts stream earlier (expect kinds (.expected what)) (Asked stream kinds) := by
  intro s hs
  rw [expect_apply]
  split
  · rename_i hkind
    refine ⟨hs.skip, fun t ht => ?_⟩
    obtain rfl := Option.some.inj ht
    exact ⟨hs.current_mem, by simpa [isAt] using hkind⟩
  · refine ⟨hs.report hs.current_mem (.expected hwhat), fun t ht => ?_⟩
    exact absurd ht (Option.not_mem_none t)

lemma accounts_expectMark (m : Mark) {what : String} (hwhat : IsLine what) :
    Accounts stream earlier (expectMark m what) Anything :=
  (accounts_expect _ hwhat).discard

lemma accounts_expectKeyword (word : String) {what : String} (hwhat : IsLine what) :
    Accounts stream earlier (expectKeyword word what) Anything := by
  intro s hs
  rw [expectKeyword, discard_apply, expectWord_apply]
  split
  · exact ⟨hs.skip, trivial⟩
  · exact ⟨hs.report hs.current_mem (.expected hwhat), trivial⟩

lemma accounts_recover (stop : Token → Bool) :
    Accounts stream earlier (recover stop) Anything := by
  refine Accounts.bind (m := modify fun s => s.skipWhile fun t => !stop t) (P := Anything) ?_
    fun _ _ => (accounts_accept _).discard
  exact fun s hs => ⟨hs.skipWhile _, trivial⟩

lemma accounts_define (kind : SymbolKind) {name : Token} (hname : name ∈ stream)
    (hkind : name.kind = .identifier) : Accounts stream earlier (define kind name) Anything := by
  intro s hs
  rw [define_apply]
  split
  · exact ⟨hs.report hname (.duplicateDefinition kind hkind), trivial⟩
  · exact ⟨⟨hs.past, hs.ahead, hs.eof, hs.reports⟩, trivial⟩

lemma accounts_resolve (kind : SymbolKind) {site : ReferenceSite}
    (hsite : ∀ key, site = .attachment key → key ∈ words) {name : Token} (hname : name ∈ stream)
    (hkind : name.kind = .identifier) :
    Accounts stream earlier (resolve kind site name) Anything := by
  intro s hs
  rw [resolve_apply]
  split
  · exact ⟨hs, trivial⟩
  · exact ⟨hs.report hname (.unresolved kind hsite hkind), trivial⟩

lemma accounts_requirePositive {complaint : Finding} (hcomplaint : ∀ t, Says t complaint)
    {number : Option Token} {kinds : List TokenKind} (hnumber : Asked stream kinds number) :
    Accounts stream earlier (requirePositive complaint number) Anything := by
  cases number with
  | none => exact accounts_pure trivial
  | some n =>
    refine accounts_ite (fun _ => accounts_pure trivial) fun _ => ?_
    exact accounts_report (hnumber n rfl).1 (hcomplaint n)

/-! ## Loops -/

lemma accounts_forM {f : α → Check Unit} {as : List α}
    (hf : ∀ a ∈ as, Accounts stream earlier (f a) Anything) :
    Accounts stream earlier (as.forM f) Anything := by
  induction as with
  | nil => exact accounts_pure trivial
  | cons a as ih =>
    obtain ⟨ha, has⟩ := List.forall_mem_cons.1 hf
    exact ha.bind fun _ _ => ih has

/-- **Repetition**, by induction on the number of tokens ahead. -/
lemma accounts_iterate {step : α → Check (α × Bool)} {P : α → Prop}
    (hstep : ∀ a, P a → Accounts stream earlier (step a) fun r => P r.1) {a : α} (ha : P a) :
    Accounts stream earlier (iterate step a) P := by
  intro s hs
  induction hn : s.ahead.length using Nat.strongRecOn generalizing a s with
  | _ n ih =>
    subst hn
    obtain ⟨hs', ha'⟩ := hstep a ha s hs
    rw [iterate_apply]
    split
    · rename_i hgo
      exact ih _ hgo.2 ha' _ hs' rfl
    · exact ⟨hs', ha'⟩

lemma accounts_untilClosed {item : α → Check α} {P : α → Prop}
    (hitem : ∀ a, P a → Accounts stream earlier (item a) P) {a : α} (ha : P a) :
    Accounts stream earlier (untilClosed item a) P := by
  refine accounts_iterate (fun a ha => accounts_get_bind fun r _ => ?_) ha
  refine accounts_ite (fun _ => accounts_pure ha) fun _ => ?_
  exact (hitem a ha).bind fun b hb => accounts_pure hb

lemma accounts_listed {item : α → Check α} {P : α → Prop}
    (hitem : ∀ a, P a → Accounts stream earlier (item a) P) {a : α} (ha : P a) :
    Accounts stream earlier (listed item a) P := by
  refine accounts_get_bind fun r _ => accounts_ite (fun _ => accounts_pure ha) fun _ => ?_
  refine accounts_iterate (fun a ha => (hitem a ha).bind fun b hb => ?_) ha
  exact (accounts_accept _).bind fun _ _ => accounts_pure hb

/-! ## Items -/

/-- A name that has been asked for is an identifier. -/
lemma Asked.identifier {t : Token} (h : Asked stream [.identifier] (some t)) :
    t ∈ stream ∧ t.kind = .identifier :=
  ⟨(h t rfl).1, List.mem_singleton.1 (h t rfl).2⟩

lemma accounts_expectEngine :
    Accounts stream earlier expectEngine (Asked stream TokenKind.engineNames) :=
  accounts_expect _ (.ofList (by rfl))

lemma accounts_julietItem : Accounts stream earlier julietItem Anything := by
  unfold julietItem
  refine (accounts_expect _ (.ofList (by rfl))).bind fun key hkey => ?_
  cases key with
  | none => exact accounts_recover _
  | some key =>
    obtain ⟨hmem, hkind⟩ := hkey.identifier
    refine accounts_unless (accounts_report hmem (.unknownJulietKey hkind)) ?_
    refine (accounts_expectMark _ (.ofList (by rfl))).bind fun _ _ => ?_
    refine accounts_ite (fun _ => ?_) fun _ => ?_
    · exact accounts_expectEngine.discard.bind fun _ _ => accounts_expectMark _ (.ofList (by rfl))
    · exact (accounts_expect _ (.ofList (by rfl))).discard.bind fun _ _ =>
        accounts_expectMark _ (.ofList (by rfl))

/-- The tiebreakers of a rubric are literals. -/
def Labelled (stream : List Token) (body : RubricBody) : Prop :=
  ∀ t ∈ body.tiebreakers, t ∈ stream ∧ t.kind ∈ TokenKind.literals

lemma accounts_criterion {body : RubricBody} (hbody : Labelled stream body) :
    Accounts stream earlier (criterion body) (Labelled stream) := by
  have hend : ∀ label, Accounts stream earlier
      (expectMark .semicolon "';' after criterion definition" >>= fun _ =>
        pure (body.enter label)) (Labelled stream) := by
    intro label
    refine (accounts_expectMark _ (.ofList (by rfl))).bind fun _ _ => accounts_pure ?_
    cases label <;> exact hbody
  unfold criterion
  refine (accounts_expect _ (.ofList (by rfl))).bind fun label _ => ?_
  refine (accounts_expectKeyword _ (.ofList (by rfl))).bind fun _ _ => ?_
  refine (accounts_expect _ (.ofList (by rfl))).bind fun points hpoints => ?_
  refine (accounts_requirePositive (fun _ => .nonPositivePoints) hpoints).bind fun _ _ => ?_
  refine (accounts_acceptWord _).bind fun _ _ => accounts_ite (fun _ => ?_) fun _ => hend label
  refine (accounts_expect _ (.ofList (by rfl))).bind fun meaning hmeaning => ?_
  cases meaning with
  | none => exact hend label
  | some meaning =>
    exact accounts_when (accounts_report (hmeaning _ rfl).1 .emptyMeaning) (hend label)

lemma accounts_tiebreaker {body : RubricBody} (hbody : Labelled stream body) :
    Accounts stream earlier (tiebreaker body) (Labelled stream) := by
  unfold tiebreaker
  refine (accounts_expect _ (.ofList (by rfl))).bind fun label hlabel => ?_
  cases label with
  | none => exact accounts_pure hbody
  | some label =>
    refine accounts_pure fun t ht => ?_
    rcases List.mem_append.1 ht with ht | ht
    · exact hbody t ht
    · rw [List.mem_singleton.1 ht]
      exact hlabel label rfl

lemma accounts_rubricItem {body : RubricBody} (hbody : Labelled stream body) :
    Accounts stream earlier (rubricItem body) (Labelled stream) := by
  unfold rubricItem
  refine (accounts_acceptWord _).bind fun _ _ =>
    accounts_ite (fun _ => accounts_criterion hbody) fun _ => ?_
  refine (accounts_acceptWord _).bind fun _ _ => accounts_ite (fun _ => ?_) fun _ => ?_
  · refine (accounts_expectMark _ (.ofList (by rfl))).bind fun _ _ => ?_
    refine (accounts_listed (fun _ => accounts_tiebreaker) hbody).bind fun body hbody => ?_
    refine (accounts_expectMark _ (.ofList (by rfl))).bind fun _ _ => ?_
    exact (accounts_expectMark _ (.ofList (by rfl))).bind fun _ _ => accounts_pure hbody
  · refine (accounts_reportCurrent (.ofList (by rfl))).bind fun _ _ => ?_
    exact (accounts_recover _).bind fun _ _ => accounts_pure hbody

/-- A tiebreaker that is no criterion is quoted. -/
lemma accounts_matchTiebreakers {body : RubricBody} (hbody : Labelled stream body) :
    Accounts stream earlier (matchTiebreakers body) Anything := by
  refine accounts_forM fun label hlabel => ?_
  obtain ⟨hmem, hkind⟩ := hbody label hlabel
  exact accounts_ite (fun _ => accounts_pure trivial) fun _ =>
    accounts_report hmem (.unmatchedTiebreaker hkind)

lemma accounts_compareAction : Accounts stream earlier compareAction Anything := by
  unfold compareAction
  refine (accounts_expectKeyword _ (.ofList (by rfl))).bind fun _ _ => ?_
  refine (accounts_expect _ (.ofList (by rfl))).bind fun name hname => ?_
  have hend : Accounts stream earlier
      (expectMark .semicolon "';' after compare statement") Anything :=
    accounts_expectMark _ (.ofList (by rfl))
  cases name with
  | none => exact hend
  | some name =>
    obtain ⟨hmem, hkind⟩ := hname.identifier
    exact (accounts_resolve _ (by nofun) hmem hkind).bind fun _ _ => hend

lemma accounts_keepAction : Accounts stream earlier keepAction Anything := by
  unfold keepAction
  refine (accounts_expectKeyword _ (.ofList (by rfl))).bind fun _ _ => ?_
  refine (accounts_expect _ (.ofList (by rfl))).bind fun limit hlimit => ?_
  refine (accounts_requirePositive (fun _ => .nonPositiveKeep) hlimit).bind fun _ _ => ?_
  exact accounts_expectMark _ (.ofList (by rfl))

/-- An assignment quotes its key, which is an identifier. -/
lemma accountsAt_cadenceAssignment (seen : List String) {s : Checker}
    (hname : s.isAt [.identifier] = true) :
    AccountsAt stream earlier (cadenceAssignment seen) Anything s := by
  have hend : ∀ keys : List String, Accounts stream earlier
      (expectMark .semicolon "';' after cadence assignment" >>= fun _ => pure keys) Anything :=
    fun keys => (accounts_expectMark _ (.ofList (by rfl))).bind fun _ _ => accounts_pure trivial
  intro hs
  have hkind : s.current.kind = .identifier := by simpa [isAt] using hname
  have hmem := hs.current_mem
  rw [cadenceAssignment, bind_apply, advance_apply]
  generalize s.current = key at hkind hmem ⊢
  refine accounts_advance.bind (fun _ _ => ?_) s.skip hs.skip
  refine accounts_ite (fun _ => ?_) fun _ => accounts_ite (fun hcount => ?_) fun _ => ?_
  · exact accounts_expectEngine.discard.bind fun _ _ => hend _
  · have hword := Coupling.mem_words_of_countKeys hcount
    have hwhat : IsLine ("an integer for cadence key '" ++ key.text ++ "'") :=
      (IsLine.append (.ofList (by rfl)) (isLine_of_mem_words _ hword)).append (.ofList (by rfl))
    refine (accounts_expect _ hwhat).bind fun value hvalue => ?_
    exact (accounts_requirePositive (fun _ => .nonPositiveCount hword) hvalue).bind
      fun _ _ => hend _
  · refine (accounts_report hmem (.unknownCadenceKey hkind)).bind fun _ _ => ?_
    exact (accounts_expect _ (.ofList (by rfl))).discard.bind fun _ _ => hend _

lemma accounts_cadenceItem (seen : List String) :
    Accounts stream earlier (cadenceItem seen) Anything := by
  unfold cadenceItem
  refine (accounts_acceptWord _).bind fun _ _ => accounts_ite (fun _ => ?_) fun _ => ?_
  · exact accounts_compareAction.bind fun _ _ => accounts_pure trivial
  refine (accounts_acceptWord _).bind fun _ _ => accounts_ite (fun _ => ?_) fun _ => ?_
  · exact accounts_keepAction.bind fun _ _ => accounts_pure trivial
  intro s hs
  rw [get_bind_apply]
  split
  · rename_i hassignment
    rw [Bool.and_eq_true] at hassignment
    exact accountsAt_cadenceAssignment seen hassignment.1 hs
  · refine Accounts.bind (accounts_reportCurrent (.ofList (by rfl))) (fun _ _ => ?_) s hs
    exact (accounts_recover _).bind fun _ _ => accounts_pure trivial

lemma accounts_requireCountKeys {name : Token} (hname : name ∈ stream) (seen : List String) :
    Accounts stream earlier (requireCountKeys name seen) Anything := by
  refine accounts_forM fun key hkey => accounts_ite (fun _ => accounts_pure trivial) fun _ => ?_
  have hword : key ∈ words := Coupling.mem_words_of_countKeys (List.contains_iff_mem.2 hkey)
  exact accounts_report hname (.missingCadenceKey hword)

/-- A path that is met again is quoted. -/
lemma accounts_sourceFile (seen : List String) :
    Accounts stream earlier (sourceFile seen) Anything := by
  unfold sourceFile
  refine (accounts_expect _ (.ofList (by rfl))).bind fun path hpath => ?_
  cases path with
  | none => exact accounts_pure trivial
  | some path =>
    obtain ⟨hmem, hkind⟩ := hpath path rfl
    exact accounts_when (accounts_report hmem (.duplicateSourcePath (List.mem_singleton.1 hkind)))
      (accounts_pure trivial)

lemma accounts_sourceFiles : Accounts stream earlier sourceFiles Anything := by
  unfold sourceFiles
  refine (accounts_expect _ (.ofList (by rfl))).bind fun bracket hbracket => ?_
  refine (accounts_listed (fun seen _ => accounts_sourceFile seen) trivial).bind fun seen _ => ?_
  refine (accounts_expectMark _ (.ofList (by rfl))).bind fun _ _ => ?_
  refine accounts_ite (fun _ => ?_) fun _ => accounts_pure trivial
  refine accounts_get_bind fun r hr => accounts_report ?_ (.expected (.ofList (by rfl)))
  cases bracket with
  | none => exact hr.previous_mem
  | some bracket => exact (hbracket bracket rfl).1

lemma accounts_origin : Accounts stream earlier origin Anything := by
  unfold origin
  refine (accounts_acceptWord _).bind fun _ _ => accounts_ite (fun _ => ?_) fun _ => ?_
  · exact (accounts_expect _ (.ofList (by rfl))).discard
  refine (accounts_acceptWord _).bind fun _ _ => ?_
  refine accounts_ite (fun _ => accounts_sourceFiles) fun _ => ?_
  exact accounts_reportCurrent (.ofList (by rfl))

lemma accounts_dependencies : Accounts stream earlier dependencies Anything := by
  have hitem : Accounts stream earlier dependency Anything := by
    unfold dependency
    refine (accounts_expect _ (.ofList (by rfl))).bind fun name hname => ?_
    cases name with
    | none => exact accounts_pure trivial
    | some name =>
      obtain ⟨hmem, hkind⟩ := hname.identifier
      exact accounts_resolve _ (by nofun) hmem hkind
  unfold dependencies
  refine (accounts_expectMark _ (.ofList (by rfl))).bind fun _ _ => ?_
  refine (accounts_listed (fun _ _ => hitem) trivial).bind fun _ _ => ?_
  exact accounts_expectMark _ (.ofList (by rfl))

/-- An attachment quotes its key, and the name that it refers to. -/
lemma accounts_attachment (seen : List String) :
    Accounts stream earlier (attachment seen) Anything := by
  unfold attachment
  refine (accounts_expect _ (.ofList (by rfl))).bind fun key hkey => ?_
  cases key with
  | none => exact (accounts_recover _).bind fun _ _ => accounts_pure trivial
  | some key =>
    obtain ⟨hmem, hkind⟩ := hkey.identifier
    refine accounts_when (accounts_report hmem (.duplicateAttachment hkind)) ?_
    refine (accounts_expectMark _ (.ofList (by rfl))).bind fun _ _ => ?_
    refine (accounts_expect _ (.ofList (by rfl))).bind fun name hname => ?_
    refine (accounts_expectMark _ (.ofList (by rfl))).bind fun _ _ => ?_
    cases hspace : attachmentKind? key.text with
    | none =>
      exact (accounts_report hmem (.unknownAttachmentKey hkind)).bind fun _ _ =>
        accounts_pure trivial
    | some kind =>
      cases name with
      | none => exact accounts_pure trivial
      | some name =>
        obtain ⟨hmem', hkind'⟩ := hname.identifier
        have hsite : ∀ key', ReferenceSite.attachment key.text = .attachment key' →
            key' ∈ words := by
          rintro _ ⟨⟩
          exact Coupling.mem_words_of_attachmentKind? hspace
        exact (accounts_resolve _ hsite hmem' hkind').bind fun _ _ => accounts_pure trivial

lemma accounts_attachments : Accounts stream earlier attachments Anything := by
  unfold attachments
  refine (accounts_expectMark _ (.ofList (by rfl))).bind fun _ _ => ?_
  refine (accounts_untilClosed (fun seen _ => accounts_attachment seen) trivial).discard.bind
    fun _ _ => ?_
  exact accounts_expectMark _ (.ofList (by rfl))

/-! ## Statements -/

lemma accounts_juliet : Accounts stream earlier juliet Anything := by
  unfold juliet
  refine accounts_get_bind fun r _ => accounts_when (P := Anything) ?_ ?_
  · exact fun s hs => ⟨hs.report hs.previous_mem .duplicateJuliet, trivial⟩
  refine Accounts.bind (m := modify fun s => { s with julietSeen := true }) (P := Anything) ?_
    fun _ _ => ?_
  · exact fun s hs => ⟨⟨hs.past, hs.ahead, hs.eof, hs.reports⟩, trivial⟩
  refine (accounts_expectMark _ (.ofList (by rfl))).bind fun _ _ => ?_
  refine (accounts_untilClosed (fun _ _ => accounts_julietItem) trivial).bind fun _ _ => ?_
  exact accounts_expectMark _ (.ofList (by rfl))

/-- A statement that starts with a name goes on behind the name, or is left behind. -/
lemma accounts_named {what : String} (hwhat : IsLine what) {f : Option Token → Check Unit}
    (hnone : f none = recoverStatement)
    (hsome : ∀ name, name ∈ stream → name.kind = .identifier →
      Accounts stream earlier (f (some name)) Anything) :
    Accounts stream earlier (expectName what >>= f) Anything := by
  refine (accounts_expect _ hwhat).bind fun name hname => ?_
  cases name with
  | none =>
    rw [hnone]
    exact accounts_recover _
  | some name =>
    obtain ⟨hmem, hkind⟩ := hname.identifier
    exact hsome name hmem hkind

lemma accounts_policy : Accounts stream earlier policy Anything := by
  refine accounts_named (.ofList (by rfl)) rfl fun name hmem hkind => ?_
  refine (accounts_define _ hmem hkind).bind fun _ _ => ?_
  refine (accounts_expectMark _ (.ofList (by rfl))).bind fun _ _ => ?_
  refine (accounts_expect _ (.ofList (by rfl))).discard.bind fun _ _ => ?_
  exact accounts_expectMark _ (.ofList (by rfl))

lemma accounts_rubric : Accounts stream earlier rubric Anything := by
  refine accounts_named (.ofList (by rfl)) rfl fun name hmem hkind => ?_
  refine (accounts_define _ hmem hkind).bind fun _ _ => ?_
  refine (accounts_expectMark _ (.ofList (by rfl))).bind fun _ _ => ?_
  have hempty : Labelled stream ⟨[], []⟩ := fun t ht => nomatch ht
  refine (accounts_untilClosed (fun _ => accounts_rubricItem) hempty).bind fun body hbody => ?_
  exact (accounts_expectMark _ (.ofList (by rfl))).bind fun _ _ => accounts_matchTiebreakers hbody

lemma accounts_cadence : Accounts stream earlier cadence Anything := by
  refine accounts_named (.ofList (by rfl)) rfl fun name hmem hkind => ?_
  refine (accounts_define _ hmem hkind).bind fun _ _ => ?_
  refine (accounts_expectMark _ (.ofList (by rfl))).bind fun _ _ => ?_
  refine (accounts_untilClosed (fun seen _ => accounts_cadenceItem seen) trivial).bind
    fun seen _ => ?_
  refine (accounts_expectMark _ (.ofList (by rfl))).bind fun _ _ => ?_
  exact accounts_requireCountKeys hmem seen

lemma accounts_create : Accounts stream earlier create Anything := by
  refine accounts_named (.ofList (by rfl)) rfl fun name hmem hkind => ?_
  refine (accounts_expectKeyword _ (.ofList (by rfl))).bind fun _ _ => ?_
  refine accounts_origin.bind fun _ _ => (accounts_acceptWord _).bind fun _ _ => ?_
  refine accounts_when accounts_dependencies ((accounts_acceptWord _).bind fun _ _ => ?_)
  refine accounts_when accounts_attachments ?_
  exact (accounts_expectMark _ (.ofList (by rfl))).bind fun _ _ => accounts_define _ hmem hkind

lemma accounts_extend : Accounts stream earlier extend Anything := by
  have hend : Accounts stream earlier (do
      expectKeyword "with" "'with' after extend target"
      discard (expectLiteral "string or block string after 'with'")
      expectMark .semicolon "';' after extend statement") Anything := by
    refine (accounts_expectKeyword _ (.ofList (by rfl))).bind fun _ _ => ?_
    refine (accounts_expect _ (.ofList (by rfl))).discard.bind fun _ _ => ?_
    exact accounts_expectMark _ (.ofList (by rfl))
  refine accounts_named (.ofList (by rfl)) rfl fun name hmem hkind => ?_
  refine (accounts_resolve _ (by nofun) hmem hkind).bind fun _ _ => ?_
  refine (accounts_expectMark _ (.ofList (by rfl))).bind fun _ _ => ?_
  refine (accounts_expect _ (.ofList (by rfl))).bind fun target htarget => ?_
  cases target with
  | none => exact hend
  | some target =>
    exact accounts_unless (accounts_report (htarget target rfl).1 .unsupportedExtendTarget) hend

lemma accounts_halt : Accounts stream earlier halt Anything := by
  unfold halt
  have hmessage : Accounts stream earlier
      (discard (expectLiteral "optional halt message string before ';'")) Anything :=
    (accounts_expect _ (.ofList (by rfl))).discard
  refine accounts_get_bind fun r _ => accounts_unless hmessage ?_
  exact accounts_expectMark _ (.ofList (by rfl))

lemma accounts_statement (kind : StatementKind) :
    Accounts stream earlier (statement kind) Anything := by
  cases kind with
  | juliet => exact accounts_juliet
  | policy => exact accounts_policy
  | rubric => exact accounts_rubric
  | cadence => exact accounts_cadence
  | create => exact accounts_create
  | extend => exact accounts_extend
  | halt => exact accounts_halt

lemma accounts_scriptItem : Accounts stream earlier scriptItem Anything := by
  unfold scriptItem
  refine accounts_get_bind fun r _ => ?_
  cases StatementKind.ofToken? r.current with
  | some kind =>
    exact accounts_advance.bind fun _ _ => accounts_statement kind
  | none =>
    exact (accounts_reportCurrent (.ofList (by rfl))).bind fun _ _ =>
      accounts_recover _

/-- **Whatever is reported about a script is said about one of its tokens.** -/
lemma accounts_script : Accounts stream earlier script Anything := by
  refine accounts_iterate (P := Anything) (fun _ _ => accounts_get_bind fun r _ => ?_) trivial
  refine accounts_ite (fun _ => accounts_pure trivial) fun _ => ?_
  exact accounts_scriptItem.bind fun _ _ => accounts_pure trivial

end Check

/-- **What is found in a text** is found by reading it as tokens, or is said about one of these. -/
lemma says_of_mem_lint {script : String} {d : Diagnostic} (h : d ∈ lint script) :
    d ∈ (tokenize script).diagnostics ∨
      ∃ t ∈ (tokenize script).stream, d.range = t.range ∧ Says t d.finding := by
  have hstart : (Checker.ofTokenized (tokenize script)).Accounted (tokenize script).stream
      (tokenize script).diagnostics :=
    { past := fun t ht => nomatch ht
      ahead := fun t ht => List.mem_append_left _ ht
      eof := List.mem_append_right _ List.mem_cons_self
      reports := fun d hd => .inl (List.mem_reverse.1 hd) }
  exact (Check.accounts_script _ hstart).1.reports d (mem_lint_iff.1 h)

end WorkflowLint
