import WorkflowLint.Proofs.Acceptance
import WorkflowLint.Proofs.Growth

/-!
# Checks come to an end

The loops of a check have no counter. Each goes round as long as its own test says so, and comes to
an end only because every round passes a token. After a failed expectation nothing is passed, so it
is for the recovery, or for the token that opened the round, to pass one; which of them it is
differs from loop to loop, and from one way through a round to the other.

`Check.iterate` has a test of its own, which makes it total. `Check.Repeats` is the loop without
that test. It is shown for all loops that they end, and end as `Check.iterate` says.

## Main definitions

* `WorkflowLint.Check.Passes` — a check passes a token at least.
* `WorkflowLint.Check.Repeats` — a loop that ends by its own test.
* `WorkflowLint.Check.Loop` — the loops of checks and what one round of each does.

## Main results

* `WorkflowLint.Check.Loop.passes` — a round that goes on has passed a token.
* `WorkflowLint.Check.Loop.repeats` — all loops end by their own test.
* `WorkflowLint.Check.ahead_script` — behind a script nothing is left.
* `WorkflowLint.Check.runCalls_progress` — whatever a check is told, it makes progress and loses
  nothing.
-/

set_option autoImplicit false

namespace WorkflowLint.Check

variable {α β : Type}

/-! ## Passing a token -/

/-- From the state `s`, a check passes a token at least. -/
def Passes (m : Check α) (s : Checker) : Prop := (m s).2.ahead.length < s.ahead.length

/-- A check only moves forward. -/
def Forward (m : Check α) : Prop := Reads m fun _ _ => True

lemma Reads.forward {m : Check α} {P : α → List Token → Prop} (h : Reads m P) : Forward m :=
  h.mono fun _ _ _ => trivial

lemma Forward.bind {m : Check α} {f : α → Check β} (hm : Forward m) (hf : ∀ a, Forward (f a)) :
    Forward (m >>= f) :=
  Reads.bind hm fun a => (hf a).mono fun _ _ _ _ _ => trivial

lemma Forward.eof_kind {m : Check α} (h : Forward m) {s : Checker} (hs : s.eof.kind = .eof) :
    (m s).2.eof.kind = .eof := by
  rw [(h s hs).1, hs]

lemma Forward.length_le {m : Check α} (h : Forward m) {s : Checker} (hs : s.eof.kind = .eof) :
    (m s).2.ahead.length ≤ s.ahead.length := by
  obtain ⟨-, -, ts, hts, -⟩ := h s hs
  rw [hts, List.length_append]
  omega

/-- What lets the state grow moves forward. -/
lemma forward_of_grows {m : Check α} (h : ∀ s : Checker, s.Grows (m s).2) :
    Forward m := by
  intro s _
  obtain ⟨ts, hts⟩ := (h s).exists_ahead
  exact ⟨(h s).eof, (h s).reports, ts, hts, fun _ => trivial⟩

lemma forward_advance : Forward advance := forward_of_grows Checker.grows_skip

/-- What moves forward may stand behind what passes a token. -/
lemma Passes.bind {m : Check α} {f : α → Check β} {s : Checker} (hm : Passes m s)
    (hs : (m s).2.eof.kind = .eof) (hf : Forward (f (m s).1)) : Passes (m >>= f) s :=
  Nat.lt_of_le_of_lt (hf.length_le hs) hm

/-- What moves forward may stand in front of what passes a token. -/
lemma Forward.bind_passes {m : Check α} {f : α → Check β} {s : Checker} (hm : Forward m)
    (hs : s.eof.kind = .eof) (hf : Passes (f (m s).1) (m s).2) : Passes (m >>= f) s :=
  Nat.lt_of_lt_of_le hf (hm.length_le hs)

/-- A state that is not at its end passes the token at hand. -/
lemma length_skip_lt {s : Checker} (hgo : s.atEnd = false) :
    s.skip.ahead.length < s.ahead.length := by
  obtain ⟨past, ahead, eof, reports, definitions, seen⟩ := s
  cases ahead with
  | nil => exact Bool.noConfusion hgo
  | cons t ts => simp [Checker.skip]

/-- **Recovery passes a token**, unless it stops in front of one that is no semicolon. -/
lemma passes_recover {stop : Token → Bool} {s : Checker} (hgo : s.atEnd = false)
    (hstop : stop s.current = true → s.current.kind = .mark .semicolon) :
    Passes (recover stop) s := by
  have haccept := grows_accept (.mark .semicolon) (s.skipWhile fun t => !stop t)
  obtain ⟨past, ahead, eof, reports, definitions, seen⟩ := s
  cases ahead with
  | nil => exact Bool.noConfusion hgo
  | cons t ts =>
    rw [Checker.current_cons] at hstop
    by_cases ht : stop t = true
    · have hkind := hstop ht
      simp [Passes, recover, Checker.skipWhile, ht, accept_apply, Checker.isAt_cons, hkind]
    · have hdrop : (ts.dropWhile fun t => !stop t).length ≤ ts.length :=
        (List.dropWhile_suffix _).length_le
      refine Nat.lt_of_le_of_lt haccept.length_ahead_le ?_
      simp only [Checker.skipWhile, ht, List.dropWhile_cons, List.length_cons, Bool.not_false,
        if_true]
      omega

lemma passes_recoverInBlock {s : Checker} (hopen : s.isAt [.mark .closeBrace] = false)
    (hgo : s.atEnd = false) : Passes recoverInBlock s := by
  refine passes_recover hgo fun hstop => ?_
  simp only [Checker.isAt, List.contains_cons, List.contains_nil, Bool.or_false] at hopen
  rw [endsItem, hopen, Bool.or_false, beq_iff_eq] at hstop
  exact hstop

lemma passes_recoverInBlock_pure (a : α) {s : Checker}
    (hopen : s.isAt [.mark .closeBrace] = false) (hgo : s.atEnd = false) :
    Passes (recoverInBlock >>= fun _ => pure a) s :=
  passes_recoverInBlock hopen hgo

/-- A missing key is left behind, and a key that is there has been passed. -/
lemma passes_expectName {what : String} {f : Option Token → Check β} {s : Checker}
    (hs : s.eof.kind = .eof) (hgo : s.atEnd = false) (hsome : ∀ key, Forward (f (some key)))
    (hnone : Passes (f none) (report (.expected what) s.current s).2) :
    Passes (expectName what >>= f) s := by
  by_cases hname : s.isAt [.identifier] = true
  · have hrun : expectName what s = (some s.current, s.skip) := by
      rw [expectName, expect_apply, if_pos hname]
    refine Passes.bind ?_ ?_ ?_
    · rw [Passes, hrun]
      exact length_skip_lt hgo
    · rw [hrun, s.skip_forward.1, hs]
    · rw [hrun]
      exact hsome _
  · have hrun : expectName what s = (none, (report (.expected what) s.current s).2) := by
      rw [expectName, expect_apply, if_neg hname]
    rw [Passes, bind_apply, hrun]
    exact hnone

/-- A keyword that is there has been passed. -/
lemma passes_keyword {word : String} {m n : Check α} {s : Checker} (hs : s.eof.kind = .eof)
    (hgo : s.atEnd = false) (hm : Forward m) (hn : s.isAtWord word = false → Passes n s) :
    Passes (acceptWord word >>= fun given => if given then m else n) s := by
  by_cases hword : s.isAtWord word = true
  · have hrun : acceptWord word s = (true, s.skip) := by rw [acceptWord_apply, if_pos hword]
    refine Passes.bind ?_ ?_ ?_
    · rw [Passes, hrun]
      exact length_skip_lt hgo
    · rw [hrun, s.skip_forward.1, hs]
    · rw [hrun]
      exact hm
  · have hrun : acceptWord word s = (false, s) := by rw [acceptWord_apply, if_neg hword]
    rw [Passes, bind_apply, hrun]
    exact hn (by simpa using hword)

/-! ## Rounds -/

section Rounds

variable {s : Checker}

/-- An item of a `juliet` block passes a token. -/
lemma passes_julietItem (hs : s.eof.kind = .eof) (hopen : s.isAt [.mark .closeBrace] = false)
    (hgo : s.atEnd = false) : Passes julietItem s := by
  unfold julietItem
  refine passes_expectName hs hgo (fun key => ?_) (passes_recoverInBlock hopen hgo)
  refine reads_unless ((reads_report _ _).mono fun _ _ h => h.1) ?_
  refine (reads_expectMark _ _).forward.bind fun _ => reads_ite (fun _ => ?_) fun _ => ?_
  · exact (reads_expectLeaf (by decide) _).forward.bind fun _ => (reads_expectMark _ _).forward
  · exact (reads_expectLeaf (by decide) _).forward.bind fun _ => (reads_expectMark _ _).forward

/-- An item of a rubric passes a token. -/
lemma passes_rubricItem (body : RubricBody) (hs : s.eof.kind = .eof)
    (hopen : s.isAt [.mark .closeBrace] = false) (hgo : s.atEnd = false) :
    Passes (rubricItem body) s := by
  unfold rubricItem
  refine passes_keyword hs hgo (reads_criterion body).forward fun _ => ?_
  refine passes_keyword hs hgo (reads_tiebreakers body).forward fun _ => ?_
  refine (reads_reportCurrent _).forward.bind_passes hs ?_
  exact passes_recoverInBlock_pure body hopen hgo

/-- An item of a cadence passes a token. -/
lemma passes_cadenceItem (seen : List String) (hs : s.eof.kind = .eof)
    (hopen : s.isAt [.mark .closeBrace] = false) (hgo : s.atEnd = false) :
    Passes (cadenceItem seen) s := by
  unfold cadenceItem
  refine passes_keyword hs hgo ?_ fun _ => passes_keyword hs hgo ?_ fun _ => ?_
  · exact reads_compareAction.forward.bind fun _ => reads_pure trivial
  · exact reads_keepAction.forward.bind fun _ => reads_pure trivial
  rw [Passes, get_bind_apply, ite_apply]
  split
  · refine Passes.bind (m := advance) (length_skip_lt hgo) (forward_advance.eof_kind hs) ?_
    refine Forward.bind (forward_advance.discard.forward) fun _ => ?_
    have hsemicolon : ∀ keys : List String, Forward
        (expectMark .semicolon "';' after cadence assignment" >>= fun _ => pure keys) :=
      fun keys => (reads_expectMark _ _).forward.bind fun _ => reads_pure trivial
    refine reads_ite (fun _ => ?_) fun _ => reads_ite (fun _ => ?_) fun _ => ?_
    · exact (reads_expectLeaf (by decide) _).forward.bind fun _ => hsemicolon _
    · refine (reads_expectNumber _).forward.bind fun value => ?_
      exact (reads_requirePositive _).forward.bind fun _ => hsemicolon _
    · refine (reads_report _ _).forward.bind fun _ => ?_
      exact (reads_expectLeaf (by decide) _).forward.bind fun _ => hsemicolon _
  · refine (reads_reportCurrent _).forward.bind_passes hs ?_
    exact passes_recoverInBlock_pure seen hopen hgo

/-- An attachment passes a token. -/
lemma passes_attachment (seen : List String) (hs : s.eof.kind = .eof)
    (hopen : s.isAt [.mark .closeBrace] = false) (hgo : s.atEnd = false) :
    Passes (attachment seen) s := by
  unfold attachment
  refine passes_expectName hs hgo (fun key => ?_) ?_
  · refine reads_when ((reads_report _ _).mono fun _ _ h => h.1) ?_
    refine (reads_expectMark _ _).forward.bind fun _ => ?_
    refine (reads_expectName _).forward.bind fun reference => ?_
    refine (reads_expectMark _ _).forward.bind fun _ => ?_
    split
    · exact (reads_report _ _).forward.bind fun _ => reads_pure trivial
    · exact (reads_resolve _ _ _).forward.bind fun _ => reads_pure trivial
    · exact reads_pure trivial
  · exact passes_recoverInBlock_pure seen hopen hgo

/-- A round over a script passes a token: the keyword of a statement, or else whatever the recovery
leaves behind. -/
lemma passes_scriptItem (hs : s.eof.kind = .eof) (hgo : s.atEnd = false) :
    Passes scriptItem s := by
  unfold scriptItem
  rw [Passes, get_bind_apply]
  cases hkind : StatementKind.ofToken? s.current with
  | some kind =>
    refine Passes.bind ?_ ?_ (reads_statement kind).forward
    · exact length_skip_lt hgo
    · rw [discard_apply, advance_apply, s.skip_forward.1, hs]
  | none =>
    refine (reads_reportCurrent _).forward.bind_passes hs (passes_recover hgo fun hstop => ?_)
    replace hstop : endsStatement s.current = true := hstop
    rw [endsStatement, hkind, Option.isSome_none, Bool.or_false, beq_iff_eq] at hstop
    exact hstop

end Rounds

/-! ## Loops -/

/-- `Repeats round a s b s'`: gone round from `a` and `s` for as long as the round itself says so, a
loop comes to an end with `b` and `s'`. -/
inductive Repeats (round : α → Check (α × Bool)) : α → Checker → α → Checker → Prop
  | stop {a : α} {s : Checker} :
      (round a s).1.2 = false → Repeats round a s (round a s).1.1 (round a s).2
  | next {a b : α} {s s' : Checker} :
      (round a s).1.2 = true → Repeats round (round a s).1.1 (round a s).2 b s' →
        Repeats round a s b s'

/-- **A loop ends by its own test** if every round that goes on passes a token.

**Proof sketch.** Induction on the number of tokens ahead. The test of `iterate` is that a token is
passed, so it agrees with that of the round. -/
lemma repeats_iterate {round : α → Check (α × Bool)} (hforward : ∀ a, Forward (round a))
    (hpasses : ∀ a s, s.eof.kind = .eof → (round a s).1.2 = true → Passes (round a) s) (a : α)
    {s : Checker} (hs : s.eof.kind = .eof) :
    Repeats round a s (iterate round a s).1 (iterate round a s).2 := by
  induction hn : s.ahead.length using Nat.strongRecOn generalizing a s with
  | _ n ih =>
    subst hn
    rw [iterate_apply]
    cases hgo : (round a s).1.2 with
    | false =>
      rw [if_neg (by simp)]
      exact .stop hgo
    | true =>
      have hlt := hpasses a s hs hgo
      rw [if_pos ⟨rfl, hlt⟩]
      exact .next hgo (ih _ hlt _ ((hforward a).eof_kind hs) rfl)

/-- A loop moves forward if every round does. -/
lemma forward_iterate {round : α → Check (α × Bool)} (hround : ∀ a, Forward (round a)) (a : α) :
    Forward (iterate round a) := by
  intro s hs
  induction hn : s.ahead.length using Nat.strongRecOn generalizing a s with
  | _ n ih =>
    subst hn
    obtain ⟨heof, hreports, ts, hts, -⟩ := hround a s hs
    rw [ReadsAt, iterate_apply]
    split
    · rename_i hgo
      obtain ⟨heof', hreports', us, hus, -⟩ :=
        ih _ hgo.2 (round a s).1.1 _ ((hround a).eof_kind hs) rfl
      refine ⟨heof'.trans heof, hreports.trans hreports', ts ++ us, ?_, fun _ => trivial⟩
      rw [hts, hus, List.append_assoc]
    · exact ⟨heof, hreports, ts, hts, fun _ => trivial⟩

/-- A round over the items of a block. -/
def blockRound (item : α → Check α) (a : α) : Check (α × Bool) := do
  let s ← get
  if s.isAt [.mark .closeBrace] || s.atEnd then
    return (a, false)
  return (← item a, true)

/-- A round over a list with commas. -/
def listRound (item : α → Check α) (a : α) : Check (α × Bool) := do
  let a ← item a
  return (a, ← accept (.mark .comma))

/-- A round over the statements of a script. -/
def scriptRound (_ : Unit) : Check (Unit × Bool) := do
  if (← get).atEnd then
    return ((), false)
  scriptItem
  return ((), true)

/-- The loops of checks, and what one round of each does. -/
inductive Loop : ∀ {α : Type}, (α → Check α) → (α → Check (α × Bool)) → Prop
  | settings : Loop (fun _ => julietItems) (blockRound fun _ => julietItem)
  | criteria : Loop rubricItems (blockRound rubricItem)
  | actions : Loop cadenceItems (blockRound cadenceItem)
  | attachments : Loop attachmentItems (blockRound attachment)
  | tiebreakers : Loop (separated tiebreaker) (listRound tiebreaker)
  | sourceFiles : Loop (separated sourceFile) (listRound sourceFile)
  | dependencies : Loop (separated fun _ => dependency) (listRound fun _ => dependency)
  | statements : Loop (fun _ => script) scriptRound

lemma forward_blockRound {item : α → Check α} (hitem : ∀ a, Forward (item a)) (a : α) :
    Forward (blockRound item a) := by
  intro s hs
  refine readsAt_get_bind (readsAt_ite (fun _ => reads_pure trivial s hs) fun _ => ?_)
  exact (hitem a).bind (fun _ => reads_pure trivial) s hs

lemma forward_listRound {item : α → Check α} (hitem : ∀ a, Forward (item a)) (a : α) :
    Forward (listRound item a) :=
  (hitem a).bind fun _ => (forward_of_grows (grows_accept _)).bind fun _ => reads_pure trivial

/-- A round over a block goes on behind an item, in front of which the block was open. -/
lemma passes_blockRound {item : α → Check α} {a : α} {s : Checker}
    (hitem : s.isAt [.mark .closeBrace] = false → s.atEnd = false → Passes (item a) s)
    (hgo : (blockRound item a s).1.2 = true) : Passes (blockRound item a) s := by
  rw [blockRound, get_bind_apply, ite_apply] at hgo
  rw [Passes, blockRound, get_bind_apply, ite_apply]
  split at hgo
  · exact Bool.noConfusion hgo
  · rename_i hopen
    rw [if_neg hopen]
    rw [Bool.not_eq_true, Bool.or_eq_false_iff] at hopen
    exact hitem hopen.1 hopen.2

/-- A round over a list goes on behind a comma. -/
lemma passes_listRound {item : α → Check α} {a : α} {s : Checker} (hs : s.eof.kind = .eof)
    (hitem : Forward (item a)) (hgo : (listRound item a s).1.2 = true) :
    Passes (listRound item a) s := by
  have hs' := hitem.eof_kind hs
  refine hitem.bind_passes hs ?_
  rw [listRound, bind_apply, bind_apply, accept_apply] at hgo
  rw [Passes, bind_apply, accept_apply]
  split at hgo
  · rename_i hcomma
    rw [if_pos hcomma]
    refine length_skip_lt ?_
    by_contra hend
    -- the end is no comma
    have hnil : (item a s).2.ahead = [] := by simpa [Checker.atEnd] using hend
    simp [Checker.isAt, Checker.current, hnil, hs'] at hcomma
  · exact Bool.noConfusion hgo

namespace Loop

variable {m : α → Check α} {round : α → Check (α × Bool)}

/-- Every loop is the iteration of its round. -/
lemma eq_iterate (h : Loop m round) : m = iterate round := by
  cases h <;> rfl

/-- A round moves forward. -/
lemma forward (h : Loop m round) (a : α) : Forward (round a) := by
  cases h with
  | settings => exact forward_blockRound (fun _ => reads_julietItem.forward) a
  | criteria => exact forward_blockRound (fun b => (reads_rubricItem b).forward) a
  | actions => exact forward_blockRound (fun b => (reads_cadenceItem b).forward) a
  | attachments => exact forward_blockRound (fun b => (reads_attachment b).forward) a
  | tiebreakers => exact forward_listRound (fun b => (reads_tiebreaker b).forward) a
  | sourceFiles => exact forward_listRound (fun b => (reads_sourceFile b).forward) a
  | dependencies => exact forward_listRound (fun _ => reads_dependency.forward) a
  | statements =>
    intro s hs
    refine readsAt_get_bind (readsAt_ite (fun _ => reads_pure trivial s hs) fun _ => ?_)
    exact reads_scriptItem.forward.bind (fun _ => reads_pure trivial) s hs

/-- **A round that goes on has passed a token.** -/
lemma passes (h : Loop m round) {a : α} {s : Checker} (hs : s.eof.kind = .eof)
    (hgo : (round a s).1.2 = true) : Passes (round a) s := by
  cases h with
  | settings => exact passes_blockRound (passes_julietItem hs) hgo
  | criteria => exact passes_blockRound (passes_rubricItem a hs) hgo
  | actions => exact passes_blockRound (passes_cadenceItem a hs) hgo
  | attachments => exact passes_blockRound (passes_attachment a hs) hgo
  | tiebreakers => exact passes_listRound hs (reads_tiebreaker a).forward hgo
  | sourceFiles => exact passes_listRound hs (reads_sourceFile a).forward hgo
  | dependencies => exact passes_listRound hs reads_dependency.forward hgo
  | statements =>
    rw [scriptRound, get_bind_apply, ite_apply] at hgo
    rw [Passes, scriptRound, get_bind_apply, ite_apply]
    split at hgo
    · exact Bool.noConfusion hgo
    · rename_i hopen
      rw [if_neg hopen]
      exact passes_scriptItem hs (by simpa using hopen)

/-- **All loops end by their own test.** -/
lemma repeats (h : Loop m round) (a : α) {s : Checker} (hs : s.eof.kind = .eof) :
    Repeats round a s (m a s).1 (m a s).2 := by
  rw [h.eq_iterate]
  exact repeats_iterate h.forward (fun _ _ => h.passes) a hs

end Loop

/-! ## Scripts -/

/-- The loop over the statements ends at the end of the script only. -/
lemma ahead_of_repeats {a b : Unit} {s s' : Checker} (h : Repeats scriptRound a s b s') :
    s'.ahead = [] := by
  induction h with
  | @stop a s hstop =>
    rw [scriptRound, get_bind_apply, ite_apply] at *
    split at hstop
    · rename_i hend
      rw [if_pos hend]
      simpa [Checker.atEnd] using hend
    · exact Bool.noConfusion hstop
  | next _ _ ih => exact ih

/-- **Behind a script nothing is left.** -/
lemma ahead_script {s : Checker} (hs : s.eof.kind = .eof) : (script s).2.ahead = [] :=
  ahead_of_repeats (Loop.statements.repeats () hs)

/-- A script of which nothing is left is checked without effect. -/
lemma script_of_ahead_eq_nil {s : Checker} (h : s.ahead = []) : script s = ((), s) := by
  rw [script_apply, if_pos (by simp [Checker.atEnd, h])]

end WorkflowLint.Check

namespace WorkflowLint

/-! ## The main result -/

/-- A state of a check of a token stream: the tokens, passed or not, are those of the stream. -/
structure Checker.Over (s : Checker) (t : TokenStream) : Prop where
  tokens : s.past.reverse ++ s.ahead = t.tokens
  eof : s.eof = t.eof

lemma Checker.Grows.over {s s' : Checker} {t : TokenStream} (h : s.Grows s') (hs : s.Over t) :
    s'.Over t :=
  ⟨h.tokens.trans hs.tokens, h.eof.trans hs.eof⟩

/-- The cursor is on a token or on the end. -/
lemma Checker.Over.index_le {s : Checker} {t : TokenStream} (h : s.Over t) :
    s.index ≤ t.tokens.length := by
  rw [← h.tokens, List.length_append, List.length_reverse, Checker.index]
  omega

lemma Checker.Over.index_eq {s : Checker} {t : TokenStream} (h : s.Over t) (hnil : s.ahead = []) :
    s.index = t.tokens.length := by
  rw [← h.tokens, hnil, List.append_nil, List.length_reverse, Checker.index]

/-- **Whatever a check is told, it makes progress and loses nothing.** Over a token stream:

* every loop, from whatever place, ends by its own test, and ends as the check has it;
* from what some calls have left, any more calls leave the same tokens, move the cursor forward but
  not beyond the end, add to the reports and to the tables, and keep the `juliet` flag; and no
  table holds a name twice;
* behind these, the check of everything ahead ends with the cursor on the end; made again, it gives
  the same answer and leaves the same state.

**Proof sketch.** A round that goes on has passed a token, by cases on how it ran; and every call
lets the state grow. -/
theorem Check.runCalls_progress (t : TokenStream) (earlier : List Diagnostic)
    (calls more : List Call) :
    let s := runCalls calls (.start t.tokens t.eof earlier)
    let s' := runCalls more s
    let r := Move.run .script s'
    (∀ {α : Type} {m : α → Check α} {round : α → Check (α × Bool)}, Loop m round →
        ∀ (a : α) (u : Checker), u.Over t → Repeats round a u (m a u).1 (m a u).2) ∧
      s'.stream = t.tokens ++ [t.eof] ∧ s.index ≤ s'.index ∧ s'.index ≤ t.tokens.length ∧
      s.reported <+: s'.reported ∧
      (∀ kind, s.table kind <+: s'.table kind ∧ ((s'.table kind).map Token.text).Nodup) ∧
      (s.julietSeen = true → s'.julietSeen = true) ∧
      r.2.index = t.tokens.length ∧ Move.run .script r.2 = r := by
  intro s s' r
  have hkind : ∀ {u : Checker}, u.Over t → u.eof.kind = .eof := fun h => h.eof ▸ t.eof_kind
  have hcalls : Checker.Grows (.start t.tokens t.eof earlier) s := grows_runCalls calls _
  have hmore : s.Grows s' := grows_runCalls more s
  have hover : s'.Over t := hmore.over (hcalls.over ⟨rfl, rfl⟩)
  have hdistinct : s'.Distinct := hmore.distinct (hcalls.distinct .nil)
  have hnil : r.2.ahead = [] := ahead_script (hkind hover)
  have hrun : ∀ u, Move.run .script u = (.diagnostics (script u).2.diagnostics, (script u).2) :=
    fun _ => rfl
  refine ⟨fun hloop a u hu => hloop.repeats a (hkind hu), ?_, hmore.index_le, hover.index_le,
    hmore.reported_prefix, fun kind => ⟨hmore.table_prefix kind, hdistinct.nodup_table kind⟩,
    hmore.julietSeen, ?_, ?_⟩
  · rw [Checker.stream, hover.tokens, hover.eof]
  · exact ((grows_script s').over hover).index_eq hnil
  · rw [hrun r.2, script_of_ahead_eq_nil hnil]
    rfl

end WorkflowLint
