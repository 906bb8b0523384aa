import WorkflowLint.Proofs.Growth

/-!
# What statements do with names

Inside a statement names are looked up, and the tables are left alone: a statement enters one name
at most, its own. What is reported in between is either no matter of names, or it is about an
identifier that has been passed and that the tables do not hold.

## Main definitions

* `WorkflowLint.Finding.isLocal` — is a finding no matter of names?
* `WorkflowLint.Checker.Consults` — what one state has become in another while names were looked up.
* `WorkflowLint.Check.Consulting` — a check that looks names up.
* `WorkflowLint.SymbolKind.keyword` — the keyword in front of the names of a space.
* `WorkflowLint.Checker.Round` — what a round over a script can do.

## Main results

* `WorkflowLint.Check.consulting_untilClosed`, `WorkflowLint.Check.consulting_listed` — loops.
* `WorkflowLint.Check.round_scriptItem` — a round over a script enters one name at most.
-/

set_option autoImplicit false

namespace WorkflowLint

/-! ## Consulting the tables -/

/-- Is this a finding that does not depend on the tables? -/
def Finding.isLocal : Finding → Bool
  | .duplicateDefinition _ _ | .unresolved _ _ _ => false
  | _ => true

namespace Checker

/-- What may be reported on the way from `s` to `s'`, while the tables are those of `s`. -/
inductive Founded (s s' : Checker) : Diagnostic → Prop
  | isLocal {f : Finding} (h : f.isLocal = true) (r : Range) : Founded s s' ⟨f, r⟩
  | unresolved {kind : SymbolKind} (site : ReferenceSite) {t : Token} (hmem : t ∈ s'.past)
      (hkind : t.kind = .identifier) (hfree : s.isDefined kind t.text = false) :
      Founded s s' ⟨.unresolved kind t.text site, t.range⟩

/-- The state `s` has become `s'`, and names were looked up but not entered. -/
structure Consults (s s' : Checker) : Prop where
  grows : s.Grows s'
  definitions : s'.definitions = s.definitions
  reports : ∃ new, s'.reports = new ++ s.reports ∧ ∀ d ∈ new, Founded s s' d

/-- An identifier that has been passed. -/
structure Met (s : Checker) (t : Token) : Prop where
  mem : t ∈ s.past
  kind : t.kind = .identifier

variable {s s' s'' : Checker}

lemma isDefined_congr (h : s'.definitions = s.definitions) (kind : SymbolKind) (name : String) :
    s'.isDefined kind name = s.isDefined kind name := by
  rw [isDefined, isDefined, h]

lemma Met.mono {t : Token} (h : s.Met t) (hs : s.Grows s') : s'.Met t :=
  ⟨hs.past.subset h.mem, h.kind⟩

namespace Consults

lemma refl (s : Checker) : s.Consults s := ⟨.refl s, rfl, [], rfl, by simp⟩

lemma trans (h : s.Consults s') (h' : s'.Consults s'') : s.Consults s'' := by
  obtain ⟨new, hnew, hfounded⟩ := h.reports
  obtain ⟨new', hnew', hfounded'⟩ := h'.reports
  refine ⟨h.grows.trans h'.grows, h'.definitions.trans h.definitions, new' ++ new, ?_, ?_⟩
  · rw [hnew', hnew, List.append_assoc]
  · intro d hd
    rcases List.mem_append.1 hd with hd | hd
    · cases hfounded' d hd with
      | isLocal hf r => exact .isLocal hf r
      | unresolved site hmem hkind hfree =>
        exact .unresolved site hmem hkind (isDefined_congr h.definitions _ _ ▸ hfree)
    · cases hfounded d hd with
      | isLocal hf r => exact .isLocal hf r
      | unresolved site hmem hkind hfree =>
        exact .unresolved site (h'.grows.past.subset hmem) hkind hfree

/-- What grows and reports nothing consults nothing. -/
lemma of_grows (h : s.Grows s') (hdefinitions : s'.definitions = s.definitions)
    (hreports : s'.reports = s.reports) : s.Consults s' :=
  ⟨h, hdefinitions, [], hreports, by simp⟩

lemma skip (s : Checker) : s.Consults s.skip := by
  obtain ⟨past, ahead, eof, reports, definitions, seen⟩ := s
  cases ahead with
  | nil => exact .refl _
  | cons t ts => exact .of_grows (grows_skip _) rfl rfl

lemma report {f : Finding} (hf : f.isLocal = true) (t : Token) (s : Checker) :
    s.Consults (Check.report f t s).2 := by
  refine ⟨Check.grows_report f t s, rfl, [⟨f, t.range⟩], rfl, ?_⟩
  intro d hd
  rw [List.mem_singleton.1 hd]
  exact .isLocal hf _

/-- A name that has been met is looked up. -/
lemma resolve (kind : SymbolKind) (site : ReferenceSite) {t : Token} (ht : s.Met t) :
    s.Consults (Check.resolve kind site t s).2 := by
  have hgrows := Check.grows_resolve kind site t s
  rw [Check.resolve_apply] at hgrows ⊢
  split
  · exact .refl s
  · rename_i hfree
    rw [if_neg hfree] at hgrows
    refine ⟨hgrows, rfl, [⟨.unresolved kind t.text site, t.range⟩], rfl, ?_⟩
    intro d hd
    rw [List.mem_singleton.1 hd]
    exact .unresolved site ht.mem ht.kind (by simpa using hfree)

end Consults

end Checker

namespace Check

open Checker

variable {α β : Type}

/-- From the state `s`, a check looks names up and enters none. -/
def ConsultingAt (m : Check α) (s : Checker) : Prop := s.Consults (m s).2

/-- The same from every state over a stream that has an end. -/
def Consulting (m : Check α) : Prop := ∀ s : Checker, s.eof.kind = .eof → ConsultingAt m s

/-! ## Composition -/

lemma consulting_pure (a : α) : Consulting (pure a) := fun s _ => .refl s

lemma ConsultingAt.bind {m : Check α} {f : α → Check β} {s : Checker} (hm : ConsultingAt m s)
    (hf : ∀ s', s.Consults s' → ConsultingAt (f (m s).1) s') : ConsultingAt (m >>= f) s :=
  Consults.trans hm (hf _ hm)

/-- **Sequencing.** -/
lemma Consulting.bind {m : Check α} {f : α → Check β} (hm : Consulting m)
    (hf : ∀ a, Consulting (f a)) : Consulting (m >>= f) :=
  fun s hs => (hm s hs).bind fun s' hs' => hf _ s' (hs'.grows.eof ▸ hs)

lemma Consulting.discard {m : Check α} (hm : Consulting m) :
    Consulting (discard m : Check PUnit) :=
  fun s hs => hm s hs

lemma consulting_get_bind {f : Checker → Check β} (hf : ∀ r, Consulting (f r)) :
    Consulting (get >>= f) :=
  fun s hs => hf s s hs

lemma consulting_ite {c : Prop} [Decidable c] {m n : Check α} (hm : Consulting m)
    (hn : Consulting n) : Consulting (if c then m else n) := by
  split
  · exact hm
  · exact hn

/-- A finding that is reported under a condition, in front of `k`. -/
lemma consulting_when {c : Prop} [Decidable c] {m : Check Unit} {k : Unit → Check β}
    (hm : Consulting m) (hk : Consulting (k ())) : Consulting (if c then m >>= k else k ()) :=
  consulting_ite (hm.bind fun _ => hk) hk

/-- A finding that is reported unless a condition holds, in front of `k`. -/
lemma consulting_unless {c : Prop} [Decidable c] {m : Check Unit} {k : Unit → Check β}
    (hm : Consulting m) (hk : Consulting (k ())) : Consulting (if c then k () else m >>= k) :=
  consulting_ite hk (hm.bind fun _ => hk)

/-! ## Building blocks -/

lemma consulting_advance : Consulting advance := fun s _ => .skip s

lemma consulting_report {f : Finding} (hf : f.isLocal = true) (t : Token) :
    Consulting (report f t) :=
  fun s _ => .report hf t s

lemma consulting_reportCurrent {f : Finding} (hf : f.isLocal = true) :
    Consulting (reportCurrent f) :=
  fun s _ => .report hf s.current s

lemma consulting_accept (kind : TokenKind) : Consulting (accept kind) := by
  intro s _
  rw [ConsultingAt, accept_apply]
  split
  · exact .skip s
  · exact .refl s

lemma consulting_acceptWord (word : String) : Consulting (acceptWord word) := by
  intro s _
  rw [ConsultingAt, acceptWord_apply]
  split
  · exact .skip s
  · exact .refl s

lemma consulting_expect (kinds : List TokenKind) (what : String) :
    Consulting (expect kinds (.expected what)) := by
  intro s _
  rw [ConsultingAt, expect_apply]
  split
  · exact .skip s
  · exact .report rfl _ s

lemma consulting_expectMark (m : Mark) (what : String) : Consulting (expectMark m what) :=
  (consulting_expect _ _).discard

lemma consulting_expectKeyword (word what : String) : Consulting (expectKeyword word what) := by
  intro s _
  rw [ConsultingAt, expectKeyword, discard_apply, expectWord_apply]
  split
  · exact .skip s
  · exact .report rfl _ s

/-- A token that is at hand and is an identifier has been met once it is passed. -/
lemma met_skip {s : Checker} (hs : s.eof.kind = .eof) (hname : s.isAt [.identifier] = true) :
    s.skip.Met s.current := by
  obtain ⟨past, ahead, eof, reports, definitions, seen⟩ := s
  cases ahead with
  | nil => simp [Checker.isAt, Checker.current, show eof.kind = .eof from hs] at hname
  | cons t ts =>
    refine ⟨by simp [Checker.skip, Checker.current], ?_⟩
    simpa [Checker.isAt, Checker.current] using hname

/-- **A name that is there has been met**, which whatever comes behind may rely on. -/
lemma consultingAt_expectName_bind {what : String} {f : Option Token → Check β} {s : Checker}
    (hs : s.eof.kind = .eof)
    (hsome : ∀ name s', s.Consults s' → s'.Met name → ConsultingAt (f (some name)) s')
    (hnone : ∀ s', s.Consults s' → ConsultingAt (f none) s') :
    ConsultingAt (expectName what >>= f) s := by
  have hconsults := consulting_expect [.identifier] what s hs
  rw [ConsultingAt, expect_apply] at hconsults
  rw [ConsultingAt, bind_apply, expectName, expect_apply]
  by_cases hname : s.isAt [.identifier] = true
  · rw [if_pos hname] at hconsults ⊢
    exact hconsults.trans (hsome _ _ hconsults (met_skip hs hname))
  · rw [if_neg hname] at hconsults ⊢
    exact hconsults.trans (hnone _ hconsults)

lemma consulting_recover (stop : Token → Bool) : Consulting (recover stop) := by
  refine Consulting.bind (m := modify fun s => s.skipWhile fun t => !stop t) ?_ fun _ =>
    (consulting_accept _).discard
  intro s _
  exact .of_grows (s.grows_skipWhile _) rfl rfl

lemma consulting_requirePositive {f : Finding} (hf : f.isLocal = true) (number : Option Token) :
    Consulting (requirePositive f number) := by
  cases number with
  | none => exact consulting_pure ()
  | some n => exact consulting_ite (consulting_pure ()) (consulting_report hf n)

/-! ## Loops -/

lemma consulting_forM {f : α → Check Unit} (hf : ∀ a, Consulting (f a)) (as : List α) :
    Consulting (as.forM f) := by
  induction as with
  | nil => exact consulting_pure ()
  | cons a as ih => exact (hf a).bind fun _ => ih

/-- **Repetition**, by induction on the number of tokens ahead. -/
lemma consulting_iterate {step : α → Check (α × Bool)} (hstep : ∀ a, Consulting (step a)) (a : α) :
    Consulting (iterate step a) := by
  intro s hs
  induction hn : s.ahead.length using Nat.strongRecOn generalizing a s with
  | _ n ih =>
    subst hn
    have hround : s.Consults (step a s).2 := hstep a s hs
    rw [ConsultingAt, iterate_apply]
    split
    · rename_i hgo
      exact hround.trans (ih _ hgo.2 _ _ (hround.grows.eof ▸ hs) rfl)
    · exact hround

lemma consulting_untilClosed {item : α → Check α} (hitem : ∀ a, Consulting (item a)) (a : α) :
    Consulting (untilClosed item a) := by
  refine consulting_iterate (fun a => consulting_get_bind fun r => ?_) a
  exact consulting_ite (consulting_pure _) ((hitem a).bind fun _ => consulting_pure _)

lemma consulting_listed {item : α → Check α} (hitem : ∀ a, Consulting (item a)) (a : α) :
    Consulting (listed item a) := by
  refine consulting_get_bind fun r => consulting_ite (consulting_pure a) ?_
  refine consulting_iterate (fun a => (hitem a).bind fun b => ?_) a
  exact (consulting_accept _).bind fun _ => consulting_pure _

/-! ## Items -/

lemma consulting_julietItem : Consulting julietItem := by
  unfold julietItem
  refine (consulting_expect _ _).bind fun key => ?_
  cases key with
  | none => exact consulting_recover _
  | some key =>
    refine consulting_unless (consulting_report rfl key) ?_
    refine (consulting_expectMark _ _).bind fun _ => consulting_ite ?_ ?_
    · exact (consulting_expect _ _).discard.bind fun _ => consulting_expectMark _ _
    · exact (consulting_expect _ _).discard.bind fun _ => consulting_expectMark _ _

lemma consulting_criterion (body : RubricBody) : Consulting (criterion body) := by
  have hend : ∀ label, Consulting
      (expectMark .semicolon "';' after criterion definition" >>= fun _ =>
        pure (body.enter label)) :=
    fun label => (consulting_expectMark _ _).bind fun _ => consulting_pure _
  unfold criterion
  refine (consulting_expect _ _).bind fun label => ?_
  refine (consulting_expectKeyword _ _).bind fun _ => ?_
  refine (consulting_expect _ _).bind fun points => ?_
  refine (consulting_requirePositive rfl points).bind fun _ => ?_
  refine (consulting_acceptWord _).bind fun given => consulting_ite ?_ (hend label)
  refine (consulting_expect _ _).bind fun meaning => ?_
  cases meaning with
  | none => exact hend label
  | some meaning => exact consulting_when (consulting_report rfl meaning) (hend label)

lemma consulting_tiebreaker (body : RubricBody) : Consulting (tiebreaker body) := by
  unfold tiebreaker
  refine (consulting_expect _ _).bind fun label => ?_
  cases label with
  | none => exact consulting_pure _
  | some label => exact consulting_pure _

lemma consulting_rubricItem (body : RubricBody) : Consulting (rubricItem body) := by
  unfold rubricItem
  refine (consulting_acceptWord _).bind fun _ => consulting_ite (consulting_criterion body) ?_
  refine (consulting_acceptWord _).bind fun _ => consulting_ite ?_ ?_
  · refine (consulting_expectMark _ _).bind fun _ => ?_
    refine (consulting_listed consulting_tiebreaker body).bind fun _ => ?_
    refine (consulting_expectMark _ _).bind fun _ => ?_
    exact (consulting_expectMark _ _).bind fun _ => consulting_pure _
  · refine (consulting_reportCurrent rfl).bind fun _ => ?_
    exact (consulting_recover _).bind fun _ => consulting_pure _

lemma consulting_matchTiebreakers (body : RubricBody) : Consulting (matchTiebreakers body) :=
  consulting_forM (fun label => consulting_ite (consulting_pure ()) (consulting_report rfl label)) _

/-- The rubric of a `compare` action is looked up. -/
lemma consulting_compareAction : Consulting compareAction := by
  unfold compareAction
  refine (consulting_expectKeyword _ _).bind fun _ s hs => ?_
  have hend := consulting_expectMark .semicolon "';' after compare statement"
  refine consultingAt_expectName_bind hs (fun name s' hs' hname => ?_) fun s' hs' => ?_
  · have hs'' : s'.eof.kind = .eof := hs'.grows.eof ▸ hs
    refine ConsultingAt.bind (Consults.resolve .rubric .compareAction hname) fun s'' h => ?_
    exact hend s'' (h.grows.eof ▸ hs'')
  · exact hend s' (hs'.grows.eof ▸ hs)

lemma consulting_keepAction : Consulting keepAction := by
  unfold keepAction
  refine (consulting_expectKeyword _ _).bind fun _ => ?_
  refine (consulting_expect _ _).bind fun limit => ?_
  exact (consulting_requirePositive rfl limit).bind fun _ => consulting_expectMark _ _

lemma consulting_cadenceAssignment (seen : List String) : Consulting (cadenceAssignment seen) := by
  have hend : ∀ keys : List String, Consulting
      (expectMark .semicolon "';' after cadence assignment" >>= fun _ => pure keys) :=
    fun keys => (consulting_expectMark _ _).bind fun _ => consulting_pure keys
  unfold cadenceAssignment
  refine consulting_advance.bind fun key => consulting_advance.discard.bind fun _ => ?_
  refine consulting_ite ?_ (consulting_ite ?_ ?_)
  · exact (consulting_expect _ _).discard.bind fun _ => hend _
  · refine (consulting_expect _ _).bind fun value => ?_
    exact (consulting_requirePositive rfl value).bind fun _ => hend _
  · refine (consulting_report rfl key).bind fun _ => ?_
    exact (consulting_expect _ _).discard.bind fun _ => hend _

lemma consulting_cadenceItem (seen : List String) : Consulting (cadenceItem seen) := by
  unfold cadenceItem
  refine (consulting_acceptWord _).bind fun _ => consulting_ite ?_ ?_
  · exact consulting_compareAction.bind fun _ => consulting_pure _
  refine (consulting_acceptWord _).bind fun _ => consulting_ite ?_ ?_
  · exact consulting_keepAction.bind fun _ => consulting_pure _
  refine consulting_get_bind fun r => consulting_ite (consulting_cadenceAssignment seen) ?_
  refine (consulting_reportCurrent rfl).bind fun _ => ?_
  exact (consulting_recover _).bind fun _ => consulting_pure _

lemma consulting_requireCountKeys (name : Token) (seen : List String) :
    Consulting (requireCountKeys name seen) :=
  consulting_forM (fun _ => consulting_ite (consulting_pure ()) (consulting_report rfl name)) _

lemma consulting_sourceFile (seen : List String) : Consulting (sourceFile seen) := by
  unfold sourceFile
  refine (consulting_expect _ _).bind fun path => ?_
  cases path with
  | none => exact consulting_pure _
  | some path => exact consulting_when (consulting_report rfl path) (consulting_pure _)

lemma consulting_origin : Consulting origin := by
  unfold origin
  refine (consulting_acceptWord _).bind fun _ => consulting_ite ?_ ?_
  · exact (consulting_expect _ _).discard
  refine (consulting_acceptWord _).bind fun _ => consulting_ite ?_ ?_
  · refine (consulting_expect _ _).bind fun bracket => ?_
    refine (consulting_listed consulting_sourceFile []).bind fun seen => ?_
    refine (consulting_expectMark _ _).bind fun _ => consulting_ite ?_ (consulting_pure _)
    exact consulting_get_bind fun r => consulting_report rfl _
  · exact consulting_reportCurrent rfl

/-- The artifacts of a `using` list are looked up. -/
lemma consulting_dependency : Consulting dependency := by
  intro s hs
  refine consultingAt_expectName_bind hs (fun name s' _ hname => ?_) fun s' _ => .refl s'
  exact Consults.resolve .artifact .usingList hname

lemma consulting_dependencies : Consulting dependencies := by
  unfold dependencies
  refine (consulting_expectMark _ _).bind fun _ => ?_
  refine (consulting_listed (fun _ => consulting_dependency) ()).bind fun _ => ?_
  exact consulting_expectMark _ _

/-- The value of an attachment is looked up behind the semicolon, when it has long been met. -/
lemma consulting_attachment (seen : List String) : Consulting (attachment seen) := by
  unfold attachment
  refine (consulting_expect _ _).bind fun key => ?_
  cases key with
  | none => exact (consulting_recover _).bind fun _ => consulting_pure _
  | some key =>
    refine consulting_when (consulting_report rfl key) ?_
    refine (consulting_expectMark _ _).bind fun _ s hs => ?_
    have hsemicolon := consulting_expectMark .semicolon "';' after create attachment"
    refine consultingAt_expectName_bind hs (fun name s' hs' hname => ?_) fun s' hs' => ?_
    · refine (hsemicolon s' (hs'.grows.eof ▸ hs)).bind fun s'' hs'' => ?_
      cases attachmentKind? key.text with
      | none => exact Consults.report rfl key s''
      | some kind => exact Consults.resolve kind _ (hname.mono hs''.grows)
    · refine (hsemicolon s' (hs'.grows.eof ▸ hs)).bind fun s'' hs'' => ?_
      cases attachmentKind? key.text with
      | none => exact Consults.report rfl key s''
      | some kind => exact .refl s''

lemma consulting_attachments : Consulting attachments := by
  unfold attachments
  refine (consulting_expectMark _ _).bind fun _ => ?_
  refine (consulting_untilClosed consulting_attachment []).discard.bind fun _ => ?_
  exact consulting_expectMark _ _

/-! ## Statements -/

lemma consulting_juliet : Consulting juliet := by
  unfold juliet
  refine consulting_get_bind fun r => consulting_when ?_ ?_
  · exact fun s _ => .report rfl s.previous s
  refine Consulting.bind (m := modify fun s => { s with julietSeen := true }) ?_ fun _ => ?_
  · intro s _
    refine .of_grows ⟨rfl, rfl, ?_, ?_, ?_, id, fun _ => rfl⟩ rfl rfl
    · exact List.suffix_rfl
    · exact List.suffix_rfl
    · exact List.suffix_rfl
  refine (consulting_expectMark _ _).bind fun _ => ?_
  refine (consulting_untilClosed (fun _ => consulting_julietItem) ()).bind fun _ => ?_
  exact consulting_expectMark _ _

/-- The artifact of an `extend` statement is looked up. -/
lemma consulting_extend : Consulting extend := by
  intro s hs
  unfold extend
  refine consultingAt_expectName_bind hs (fun name s' hs' hname => ?_) fun s' hs' => ?_
  · refine ConsultingAt.bind (Consults.resolve .artifact .extendStatement hname) fun s'' h => ?_
    have hs'' : s''.eof.kind = .eof := h.grows.eof ▸ hs'.grows.eof ▸ hs
    have hend : Consulting (do
        expectKeyword "with" "'with' after extend target"
        discard (expectLiteral "string or block string after 'with'")
        expectMark .semicolon "';' after extend statement") := by
      refine (consulting_expectKeyword _ _).bind fun _ => ?_
      exact (consulting_expect _ _).discard.bind fun _ => consulting_expectMark _ _
    refine (consulting_expectMark _ _).bind (fun _ => ?_) s'' hs''
    refine (consulting_expect _ _).bind fun target => ?_
    cases target with
    | none => exact hend
    | some target => exact consulting_unless (consulting_report rfl target) hend
  · exact consulting_recover _ s' (hs'.grows.eof ▸ hs)

lemma consulting_halt : Consulting halt := by
  unfold halt
  refine consulting_get_bind fun r => consulting_unless ?_ (consulting_expectMark _ _)
  exact (consulting_expect _ _).discard

/-- A check that looks names up and goes on as `k`. -/
def ConsultingUpTo (k m : Check Unit) : Prop :=
  ∀ s : Checker, s.eof.kind = .eof → ∃ s', s.Consults s' ∧ m s = k s'

lemma consultingUpTo_self (k : Check Unit) : ConsultingUpTo k k := fun s _ => ⟨s, .refl s, rfl⟩

lemma Consulting.upTo {m : Check α} {f : α → Check Unit} {k : Check Unit} (hm : Consulting m)
    (hf : ∀ a, ConsultingUpTo k (f a)) : ConsultingUpTo k (m >>= f) := by
  intro s hs
  have hfirst : s.Consults (m s).2 := hm s hs
  obtain ⟨s', hs', hrun⟩ := hf (m s).1 (m s).2 (hfirst.grows.eof ▸ hs)
  exact ⟨s', hfirst.trans hs', hrun⟩

/-- A part that may be missing, in front of `f`. -/
lemma Consulting.upTo_when {c : Prop} [Decidable c] {m : Check Unit} {f : Unit → Check Unit}
    {k : Check Unit} (hm : Consulting m) (hf : ConsultingUpTo k (f ())) :
    ConsultingUpTo k (if c then m >>= f else f ()) := by
  split
  · exact hm.upTo fun _ => hf
  · exact hf

end Check

/-- The keyword in front of the names of a space. -/
def SymbolKind.keyword : SymbolKind → String
  | .policy => StatementKind.policy.word
  | .rubric => StatementKind.rubric.word
  | .cadence => StatementKind.cadence.word
  | .artifact => StatementKind.create.word

/-- **What a round over a script can do.** It only looks names up, or it also enters the name behind
the keyword at hand: an artifact when the statement ends, and any other name at once. -/
inductive Checker.Round (s : Checker) : Checker → Prop
  | consults {s' : Checker} (h : s.Consults s') : Round s s'
  | enters {kind : SymbolKind} {m s' : Checker} (hword : s.isAtWord kind.keyword = true)
      (hname : s.skip.isAt [.identifier] = true) (hbefore : s.skip.skip.Consults m)
      (hearly : kind ≠ .artifact → m = s.skip.skip)
      (hafter : (Check.define kind s.skip.current m).2.Consults s') : Round s s'

lemma Checker.Round.grows {s s' : Checker} (h : s.Round s') : s.Grows s' := by
  cases h with
  | consults h => exact h.grows
  | @enters kind m _ _ _ hbefore _ hafter =>
    have hname := s.grows_skip.trans s.skip.grows_skip
    exact ((hname.trans hbefore.grows).trans (Check.grows_define kind _ m)).trans hafter.grows

namespace Check

open Checker

/-- A statement that starts with a name, behind its keyword. Without the name it is left behind. -/
lemma round_named {what : String} {f : Option Token → Check Unit} {s : Checker}
    (hs : s.eof.kind = .eof) (hnone : Consulting (f none))
    (hsome : s.skip.isAt [.identifier] = true → s.Round (f (some s.skip.current) s.skip.skip).2) :
    s.Round ((expectName what >>= f) s.skip).2 := by
  rw [bind_apply, expectName, expect_apply]
  split
  · rename_i hname
    exact hsome hname
  · have hreport := (Consults.skip s).trans
      (.report (f := .expected what) rfl s.skip.current s.skip)
    exact .consults (hreport.trans (hnone _ (hreport.grows.eof ▸ hs)))

/-- A name that is entered at once, in front of the rest of its statement. -/
lemma round_enters {kind : SymbolKind} {k : Unit → Check Unit} {s : Checker}
    (hs : s.eof.kind = .eof) (hword : s.isAtWord kind.keyword = true)
    (hname : s.skip.isAt [.identifier] = true) (hk : Consulting (k ())) :
    s.Round ((define kind s.skip.current >>= k) s.skip.skip).2 := by
  have hskip := (Consults.skip s).trans (.skip s.skip)
  have hdefine := hskip.grows.trans (grows_define kind s.skip.current s.skip.skip)
  exact .enters hword hname (.refl _) (fun _ => rfl) (hk _ (hdefine.eof ▸ hs))

/-- An artifact, which is entered when its statement ends. -/
lemma round_enters_late {m : Check Unit} {s : Checker} (hs : s.eof.kind = .eof)
    (hword : s.isAtWord SymbolKind.artifact.keyword = true)
    (hname : s.skip.isAt [.identifier] = true)
    (hm : ConsultingUpTo (define .artifact s.skip.current) m) : s.Round (m s.skip.skip).2 := by
  have hskip := (Consults.skip s).trans (.skip s.skip)
  obtain ⟨r, hr, hrun⟩ := hm s.skip.skip (hskip.grows.eof ▸ hs)
  rw [hrun]
  exact .enters hword hname hr (fun hne => absurd rfl hne) (.refl _)

/-- **A statement enters its own name at most**, by its kind. -/
lemma round_statement {kind : StatementKind} {s : Checker} (hs : s.eof.kind = .eof)
    (hword : s.isAtWord kind.word = true) : s.Round (statement kind s.skip).2 := by
  have hconsults : Consulting (statement kind) → s.Round (statement kind s.skip).2 := by
    intro h
    have hskip := Consults.skip s
    exact .consults (hskip.trans (h s.skip (hskip.grows.eof ▸ hs)))
  cases kind with
  | juliet => exact hconsults consulting_juliet
  | policy =>
    rw [statement, policy]
    refine round_named hs (consulting_recover _) fun hname => ?_
    refine round_enters hs hword hname ?_
    refine (consulting_expectMark _ _).bind fun _ => ?_
    exact (consulting_expect _ _).discard.bind fun _ => consulting_expectMark _ _
  | rubric =>
    rw [statement, rubric]
    refine round_named hs (consulting_recover _) fun hname => ?_
    refine round_enters hs hword hname ?_
    refine (consulting_expectMark _ _).bind fun _ => ?_
    refine (consulting_untilClosed consulting_rubricItem _).bind fun body => ?_
    exact (consulting_expectMark _ _).bind fun _ => consulting_matchTiebreakers body
  | cadence =>
    rw [statement, cadence]
    refine round_named hs (consulting_recover _) fun hname => ?_
    refine round_enters hs hword hname ?_
    refine (consulting_expectMark _ _).bind fun _ => ?_
    refine (consulting_untilClosed consulting_cadenceItem _).bind fun seen => ?_
    exact (consulting_expectMark _ _).bind fun _ => consulting_requireCountKeys _ seen
  | create =>
    rw [statement, create]
    refine round_named hs (consulting_recover _) fun hname => ?_
    refine round_enters_late hs hword hname ?_
    refine (consulting_expectKeyword _ _).upTo fun _ => consulting_origin.upTo fun _ => ?_
    refine (consulting_acceptWord _).upTo fun _ => consulting_dependencies.upTo_when ?_
    refine (consulting_acceptWord _).upTo fun _ => consulting_attachments.upTo_when ?_
    exact (consulting_expectMark _ _).upTo fun _ => consultingUpTo_self _
  | extend => exact hconsults consulting_extend
  | halt => exact hconsults consulting_halt

lemma round_scriptItem {s : Checker} (hs : s.eof.kind = .eof) : s.Round (scriptItem s).2 := by
  rw [scriptItem, get_bind_apply]
  cases hkind : StatementKind.ofToken? s.current with
  | none =>
    exact .consults ((consulting_reportCurrent rfl).bind (fun _ => consulting_recover _) s hs)
  | some kind =>
    refine round_statement hs ?_
    simpa [Checker.isAtWord] using List.find?_some hkind

end Check

end WorkflowLint
