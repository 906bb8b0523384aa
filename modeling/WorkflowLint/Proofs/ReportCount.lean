import WorkflowLint.Proofs.Progress

/-!
# How many reports there can be

A check that has lost its way reports more than one thing about a token: every part of an item that
is cut short is missing. Still, the number of reports is bounded by four for each token.

## Design

The bound is an account. A state is worth its reports, and four for each token that is still ahead.
To pass a token sets four credits free, to make a report costs one. A check `Affords` something if
the credits that it is given pay for its reports; what it has left over it hands on to the check
behind it. Two kinds of credits depend on the state.

* An item of a block is only read where the block is open, so credits that are given where it is
  closed (`Checker.closedCredit`) never have to be paid.
* A repeated attachment key in front of anything but an equals sign, a name or a semicolon costs
  five reports, one more than its token sets free. But then the next round does not find a name, and
  is cheap. The credit is lent where a name is at hand (`Checker.nameCredit`).

## Main definitions

* `WorkflowLint.Checker.weight` — what a state is worth.
* `WorkflowLint.Check.Affords` — a check makes its reports out of given credits.

## Main results

* `WorkflowLint.Check.affords_untilClosed`, `WorkflowLint.Check.affords_listed` — loops.
* `WorkflowLint.Check.affords_statement` — four credits pay for a statement behind its keyword.
* `WorkflowLint.Check.reports_at_most_four_per_token` — the bound for scripts.
* `WorkflowLint.Check.length_reported_bareCriteria` — the bound cannot be lowered.
-/

set_option autoImplicit false

namespace WorkflowLint

/-! ## Accounts -/

namespace Checker

/-- What a state is worth: its reports, and four for each token ahead. -/
def weight (s : Checker) : Nat := s.reports.length + 4 * s.ahead.length

/-- Credits that are given where a block is closed. -/
def closedCredit (s : Checker) : Nat :=
  if s.isAt [.mark .closeBrace] || s.atEnd then 4 else 0

/-- A credit that is given where a name is at hand. -/
def nameCredit (s : Checker) : Nat := if s.isAt [.identifier] then 1 else 0

lemma closedCredit_of_open {s : Checker} (h : (s.isAt [.mark .closeBrace] || s.atEnd) = false) :
    s.closedCredit = 0 := by
  simp [closedCredit, h]

lemma nameCredit_le (s : Checker) : s.nameCredit ≤ 1 := by
  unfold nameCredit
  split <;> omega

/-- A state that has moved on without a report is worth less for each token that it has passed. -/
lemma weight_of_grows {s s' : Checker} (h : s.Grows s') (hreports : s'.reports = s.reports) :
    s'.weight ≤ s.weight := by
  have hlength := h.length_ahead_le
  rw [weight, weight, hreports]
  omega

lemma weight_of_passed {s s' : Checker} (h : s'.ahead.length < s.ahead.length)
    (hreports : s'.reports = s.reports) : s'.weight + 4 ≤ s.weight := by
  rw [weight, weight, hreports]
  omega

lemma reports_skip (s : Checker) : s.skip.reports = s.reports := by
  obtain ⟨past, _ | ⟨t, ahead⟩, eof, reports, definitions, seen⟩ := s
  · rfl
  · rfl

/-- A token of one of the given kinds is no end of a script. -/
lemma atEnd_of_isAt {s : Checker} (hs : s.eof.kind = .eof) {kinds : List TokenKind}
    (hkinds : .eof ∉ kinds) (h : s.isAt kinds = true) : s.atEnd = false := by
  obtain ⟨past, _ | ⟨t, ahead⟩, eof, reports, definitions, seen⟩ := s
  · replace hs : eof.kind = .eof := hs
    simp [isAt, current, hs, hkinds] at h
  · rfl

lemma isAt_of_isAtWord {s : Checker} {word : String} (h : s.isAtWord word = true) :
    s.isAt [.identifier] = true := by
  simp only [isAtWord, Token.isWord, Bool.and_eq_true, beq_iff_eq] at h
  simp [isAt, h.1]

/-- Passing a token sets four credits free. -/
lemma weight_skip {s : Checker} (hgo : s.atEnd = false) : s.skip.weight + 4 ≤ s.weight :=
  weight_of_passed (Check.length_skip_lt hgo) s.reports_skip

lemma weight_skip_le (s : Checker) : s.skip.weight ≤ s.weight :=
  weight_of_grows s.grows_skip s.reports_skip

lemma weight_report (f : Finding) (t : Token) (s : Checker) :
    (Check.report f t s).2.weight = s.weight + 1 := by
  simp only [weight, Check.report_apply, List.length_cons]
  omega

end Checker

namespace Check

variable {α β : Type}

/-- With the credits `before`, the check makes its reports, and the credits `after` are left. -/
def Affords (before : Checker → Nat) (m : Check α) (after : α → Checker → Nat) : Prop :=
  ∀ s : Checker, s.eof.kind = .eof →
    (m s).2.eof.kind = .eof ∧ (m s).2.weight + after (m s).1 (m s).2 ≤ s.weight + before s

/-! ## Composition -/

variable {before before' : Checker → Nat} {after after' : α → Checker → Nat}
  {final : β → Checker → Nat}

lemma affords_pure {a : α} (h : ∀ s, after a s ≤ before s) : Affords before (pure a) after :=
  fun s hs => ⟨hs, Nat.add_le_add_left (h s) _⟩

/-- **Sequencing.** What one check leaves over is given to the next. -/
lemma Affords.bind {m : Check α} {f : α → Check β} (hm : Affords before m after)
    (hf : ∀ a, Affords (after a) (f a) final) : Affords before (m >>= f) final := by
  intro s hs
  obtain ⟨hs', hfirst⟩ := hm s hs
  obtain ⟨hs'', hsecond⟩ := hf (m s).1 (m s).2 hs'
  exact ⟨hs'', hsecond.trans hfirst⟩

/-- More credits do no harm, and some may be given away. -/
lemma Affords.mono {m : Check α} (hm : Affords before m after) (hbefore : ∀ s, before s ≤ before' s)
    (hafter : ∀ a s, after' a s ≤ after a s) : Affords before' m after' := by
  intro s hs
  obtain ⟨hs', hle⟩ := hm s hs
  have hgiven := hbefore s
  have hleft := hafter (m s).1 (m s).2
  exact ⟨hs', by omega⟩

lemma Affords.more {m : Check α} (hm : Affords before m after)
    (hbefore : ∀ s, before s ≤ before' s) : Affords before' m after :=
  hm.mono hbefore fun _ _ => le_rfl

/-- Credits may be kept for later. -/
lemma Affords.keep {m : Check α} (hm : Affords before m after) (k : Nat) :
    Affords (fun s => before s + k) m fun a s => after a s + k := by
  intro s hs
  obtain ⟨hs', hle⟩ := hm s hs
  exact ⟨hs', by dsimp only; omega⟩

lemma Affords.discard {m : Check α} {left : Checker → Nat} (hm : Affords before m fun _ => left) :
    Affords before (discard m) fun _ => left :=
  fun s hs => hm s hs

lemma affords_get_bind {f : Checker → Check β} (h : ∀ r, Affords before (f r) final) :
    Affords before (get >>= f) final :=
  fun s hs => h s s hs

lemma affords_ite {c : Prop} [Decidable c] {m n : Check α} (hm : Affords before m after)
    (hn : Affords before n after) : Affords before (if c then m else n) after := by
  split
  · exact hm
  · exact hn

/-! ## Reports -/

variable {k : Nat}

/-- A report costs one credit. -/
lemma affords_report (f : Finding) (t : Token) (k : Nat) :
    Affords (fun _ => k + 1) (report f t) fun _ _ => k := by
  intro s hs
  exact ⟨hs, by rw [s.weight_report]; dsimp only; omega⟩

lemma affords_reportCurrent (f : Finding) (k : Nat) :
    Affords (fun _ => k + 1) (reportCurrent f) fun _ _ => k :=
  affords_get_bind fun r => affords_report f r.current k

lemma affords_reportPrevious (f : Finding) (k : Nat) :
    Affords (fun _ => k + 1) (reportPrevious f) fun _ _ => k :=
  affords_get_bind fun r => affords_report f r.previous k

/-- A report that may be made in front of `g`. -/
lemma affords_when {c : Prop} [Decidable c] {m : Check Unit} {g : Unit → Check β}
    (hm : Affords (fun _ => k + 1) m fun _ _ => k) (hg : Affords (fun _ => k) (g ()) final) :
    Affords (fun _ => k + 1) (if c then m >>= g else g ()) final :=
  affords_ite (hm.bind fun _ => hg) (hg.more fun _ => Nat.le_succ k)

lemma affords_unless {c : Prop} [Decidable c] {m : Check Unit} {g : Unit → Check β}
    (hm : Affords (fun _ => k + 1) m fun _ _ => k) (hg : Affords (fun _ => k) (g ()) final) :
    Affords (fun _ => k + 1) (if c then g () else m >>= g) final :=
  affords_ite (hg.more fun _ => Nat.le_succ k) (hm.bind fun _ => hg)

lemma affords_define (kind : SymbolKind) (name : Token) (k : Nat) :
    Affords (fun _ => k + 1) (define kind name) fun _ _ => k := by
  intro s hs
  rw [define_apply]
  split
  · exact affords_report _ name k s hs
  · exact ⟨hs, Nat.add_le_add_left (Nat.le_succ k) _⟩

lemma affords_resolve (kind : SymbolKind) (site : ReferenceSite) (name : Token) (k : Nat) :
    Affords (fun _ => k + 1) (resolve kind site name) fun _ _ => k := by
  intro s hs
  rw [resolve_apply]
  split
  · exact ⟨hs, Nat.add_le_add_left (Nat.le_succ k) _⟩
  · exact affords_report _ name k s hs

/-- Remarks about the items of a list, one for each at most. -/
lemma affords_forM {f : α → Check Unit} (hf : ∀ a k, Affords (fun _ => k + 1) (f a) fun _ _ => k)
    (as : List α) (k : Nat) : Affords (fun _ => k + as.length) (as.forM f) fun _ _ => k := by
  induction as with
  | nil => exact affords_pure fun _ => le_rfl
  | cons a as ih => exact (hf a (k + as.length)).bind fun _ => ih

/-! ## Tokens that are asked for -/

/-- **A token that is asked for** sets four credits free if it is there. That it is missing may save
credits. -/
lemma affords_expect_bind_of_missing {kinds : List TokenKind} {what : String}
    {f : Option Token → Check β} (hkinds : .eof ∉ kinds)
    (hbefore : ∀ s : Checker, s.isAt kinds = true → k ≤ before s)
    (hsome : ∀ t, Affords (fun _ => k + 4) (f (some t)) final)
    (hmissing : ∀ s : Checker, s.isAt kinds = false → before' s ≤ before s)
    (hnone : Affords before' (reportCurrent (.expected what) >>= fun _ => f none) final) :
    Affords before (expect kinds (.expected what) >>= f) final := by
  intro s hs
  rw [bind_apply, expect_apply]
  split
  · rename_i hat
    have hskip := Checker.weight_skip (Checker.atEnd_of_isAt hs hkinds hat)
    obtain ⟨hs', hle⟩ := hsome s.current s.skip (s.grows_skip.eof ▸ hs)
    have hgiven := hbefore s hat
    exact ⟨hs', by dsimp only at *; omega⟩
  · rename_i hat
    obtain ⟨hs', hle⟩ := hnone s hs
    have hsaved := hmissing s (Bool.not_eq_true _ ▸ hat)
    exact ⟨hs', hle.trans (Nat.add_le_add_left hsaved _)⟩

lemma affords_expect_bind {kinds : List TokenKind} {what : String} {f : Option Token → Check β}
    (hkinds : .eof ∉ kinds) (hbefore : ∀ s : Checker, s.isAt kinds = true → k ≤ before s)
    (hsome : ∀ t, Affords (fun _ => k + 4) (f (some t)) final)
    (hnone : Affords before (reportCurrent (.expected what) >>= fun _ => f none) final) :
    Affords before (expect kinds (.expected what) >>= f) final :=
  affords_expect_bind_of_missing hkinds hbefore hsome (fun _ _ => le_rfl) hnone

/-- A token that is asked for costs one credit at most. -/
lemma affords_expect {kinds : List TokenKind} (what : String) (k : Nat) :
    Affords (fun _ => k + 1) (expect kinds (.expected what)) fun _ _ => k := by
  intro s hs
  rw [expect_apply]
  split
  · have hskip := s.weight_skip_le
    exact ⟨s.grows_skip.eof ▸ hs, by dsimp only; omega⟩
  · exact affords_report _ s.current k s hs

lemma affords_expectMark (m : Mark) (what : String) (k : Nat) :
    Affords (fun _ => k + 1) (expectMark m what) fun _ _ => k :=
  (affords_expect what k).discard

lemma affords_expectKeyword (word what : String) (k : Nat) :
    Affords (fun _ => k + 1) (expectKeyword word what) fun _ _ => k := by
  intro s hs
  rw [expectKeyword, discard_apply, expectWord_apply]
  split
  · have hskip := s.weight_skip_le
    exact ⟨s.grows_skip.eof ▸ hs, by dsimp only; omega⟩
  · exact affords_report _ s.current k s hs

/-- A word that is there sets four credits free. -/
lemma affords_acceptWord_bind {word : String} {f : Bool → Check β} (hbefore : ∀ s, k ≤ before s)
    (htrue : Affords (fun _ => k + 4) (f true) final) (hfalse : Affords before (f false) final) :
    Affords before (acceptWord word >>= f) final := by
  intro s hs
  rw [bind_apply, acceptWord_apply]
  split
  · rename_i hword
    have hgo := Checker.atEnd_of_isAt hs (by decide) (Checker.isAt_of_isAtWord hword)
    have hskip := Checker.weight_skip hgo
    obtain ⟨hs', hle⟩ := htrue s.skip (s.grows_skip.eof ▸ hs)
    have hgiven := hbefore s
    exact ⟨hs', by dsimp only at *; omega⟩
  · exact hfalse s hs

lemma affords_requirePositive (complaint : Finding) (number : Option Token) (k : Nat) :
    Affords (fun _ => k + 1) (requirePositive complaint number) fun _ _ => k := by
  cases number with
  | none => exact affords_pure fun _ => Nat.le_succ k
  | some n => exact affords_ite (affords_pure fun _ => Nat.le_succ k) (affords_report complaint n k)

/-- A number that is tested: if it is there, its token pays for the test. -/
lemma affords_number_bind {what : String} {complaint : Finding} {g : Unit → Check β}
    (hg : Affords (fun _ => k) (g ()) final) :
    Affords (fun _ => k + 1)
      (expectNumber what >>= fun n => requirePositive complaint n >>= g) final := by
  refine affords_expect_bind (k := k + 1) (by decide) (fun _ _ => le_rfl) (fun n => ?_) ?_
  · refine (affords_requirePositive complaint (some n) (k + 4)).bind fun _ => hg.more fun _ => ?_
    omega
  · exact (affords_reportCurrent _ k).bind fun _ => hg

/-! ## Recovery -/

lemma reports_recover (stop : Token → Bool) (s : Checker) :
    (recover stop s).2.reports = s.reports := by
  have haccept : ∀ s : Checker, (accept (.mark .semicolon) s).2.reports = s.reports := by
    intro s
    rw [accept_apply]
    split
    · exact s.reports_skip
    · rfl
  exact haccept _

/-- Recovery costs nothing. -/
lemma affords_recover (stop : Token → Bool) (k : Nat) :
    Affords (fun _ => k) (recover stop) fun _ _ => k := by
  intro s hs
  have hle := Checker.weight_of_grows (grows_recover stop s) (reports_recover stop s)
  exact ⟨(grows_recover stop s).eof ▸ hs, Nat.add_le_add_right hle k⟩

/-- **An item that is left behind** pays for the complaint about it, and three credits are left: the
recovery passes a token, because the block is open. -/
lemma affords_leave_bind {complaint : Finding} {g : Unit → Check β}
    (hg : Affords (fun _ => k + 3) (g ()) final) :
    Affords (fun s => k + s.closedCredit)
      (reportCurrent complaint >>= fun _ => recoverInBlock >>= g) final := by
  intro s hs
  set r := (report complaint s.current s).2 with hr
  have hreport : r.weight = s.weight + 1 := s.weight_report complaint s.current
  have hgrows : r.Grows (recoverInBlock r).2 := grows_recover endsItem r
  have hreports : (recoverInBlock r).2.reports = r.reports := reports_recover endsItem r
  obtain ⟨hs', hle⟩ := hg (recoverInBlock r).2 (hgrows.eof ▸ hs)
  refine ⟨hs', hle.trans ?_⟩
  dsimp only
  -- in front of the end of the block nothing is passed, but the items are not asked for there
  cases hclosed : s.isAt [.mark .closeBrace] || s.atEnd with
  | true =>
    have hrecover := Checker.weight_of_grows hgrows hreports
    have hcredit : s.closedCredit = 4 := by simp [Checker.closedCredit, hclosed]
    omega
  | false =>
    rw [Bool.or_eq_false_iff] at hclosed
    have hpasses : Passes recoverInBlock r := passes_recoverInBlock hclosed.1 hclosed.2
    have hrecover := Checker.weight_of_passed hpasses hreports
    omega

/-! ## Loops -/

/-- **The items of a block** may hand on credits `due` from one to the next. -/
lemma affords_untilClosed {item : α → Check α} {due : α → Checker → Nat}
    (hitem : ∀ a, Affords (fun s => due a s + s.closedCredit) (item a) due) (a : α) :
    Affords (due a) (untilClosed item a) due := by
  intro s hs
  induction hn : s.ahead.length using Nat.strongRecOn generalizing a s with
  | _ n ih =>
    subst hn
    rw [untilClosed_apply]
    cases hclosed : s.isAt [.mark .closeBrace] || s.atEnd with
    | true => exact ⟨hs, le_rfl⟩
    | false =>
      obtain ⟨hs', hle⟩ := hitem a s hs
      dsimp only at hle
      rw [Checker.closedCredit_of_open hclosed, Nat.add_zero] at hle
      rw [if_neg (by simp)]
      split
      · rename_i hlt
        obtain ⟨hs'', hle'⟩ := ih _ hlt (item a s).1 (item a s).2 hs' rfl
        exact ⟨hs'', hle'.trans hle⟩
      · exact ⟨hs', hle⟩

/-- **The items of a list** may hand on credits `due`. The comma in front of an item pays for it, so
only the first costs something. -/
lemma affords_listed {item : α → Check α} {due : α → Nat}
    (hitem : ∀ a, Affords (fun _ => due a + 1) (item a) fun b _ => due b) (a : α) :
    Affords (fun _ => due a + 1) (listed item a) fun b _ => due b := by
  have hseparated : ∀ a, Affords (fun _ => due a + 1) (separated item a) fun b _ => due b := by
    intro a s hs
    induction hn : s.ahead.length using Nat.strongRecOn generalizing a s with
    | _ n ih =>
      subst hn
      obtain ⟨hs', hle⟩ := hitem a s hs
      rw [separated_apply]
      split
      · rename_i hcomma
        have hskip := Checker.weight_skip (Checker.atEnd_of_isAt hs' (by decide) hcomma)
        have heof := (item a s).2.grows_skip.eof ▸ hs'
        split
        · rename_i hlt
          obtain ⟨hs'', hle'⟩ := ih _ hlt (item a s).1 (item a s).2.skip heof rfl
          exact ⟨hs'', by dsimp only at *; omega⟩
        · exact ⟨heof, by dsimp only at *; omega⟩
      · exact ⟨hs', hle⟩
  intro s hs
  rw [listed_apply]
  split
  · exact ⟨hs, by dsimp only; omega⟩
  · exact hseparated a s hs

/-! ## Items -/

lemma affords_julietItem : Affords (fun s => 0 + s.closedCredit) julietItem fun _ _ => 0 := by
  unfold julietItem
  refine affords_expect_bind (k := 0) (by decide) (fun _ _ => Nat.zero_le _) (fun key => ?_) ?_
  · refine affords_unless (k := 3) (affords_report _ key _) ?_
    refine (affords_expectMark _ _ 2).bind fun _ => affords_ite ?_ ?_
    · exact (affords_expect _ 1).discard.bind fun _ => affords_expectMark _ _ 0
    · exact (affords_expect _ 1).discard.bind fun _ => affords_expectMark _ _ 0
  · exact affords_leave_bind (g := pure) (affords_pure fun _ => Nat.zero_le _)

/-- What is to be kept for the tiebreakers of a rubric: each may turn out to be no criterion. -/
def RubricBody.due (body : RubricBody) : Nat := body.tiebreakers.length

/-- A criterion, behind its keyword. All its parts may be missing. -/
lemma affords_criterion (body : RubricBody) :
    Affords (fun _ => body.due + 4) (criterion body) fun body' _ => body'.due := by
  have hend : ∀ label : Option Token, Affords (fun _ => body.due + 1)
      (expectMark .semicolon "';' after criterion definition" >>= fun _ =>
        pure (body.enter label)) fun body' _ => body'.due := by
    intro label
    refine (affords_expectMark _ _ body.due).bind fun _ => affords_pure fun _ => ?_
    cases label <;> exact le_rfl
  unfold criterion
  refine (affords_expect _ (body.due + 3)).bind fun label => ?_
  refine (affords_expectKeyword _ _ (body.due + 2)).bind fun _ => ?_
  refine affords_number_bind (k := body.due + 1) ?_
  refine affords_acceptWord_bind (k := body.due + 1) (fun _ => le_rfl) ?_ (hend label)
  refine affords_expect_bind (k := body.due + 5) (by decide) (fun _ _ => le_rfl)
    (fun meaning => ?_) ?_
  · refine affords_when (k := body.due + 8) (affords_report _ meaning _)
      ((hend label).more fun _ => ?_)
    omega
  · refine (affords_reportCurrent _ (body.due + 4)).bind fun _ => (hend label).more fun _ => ?_
    omega

lemma affords_tiebreaker (body : RubricBody) :
    Affords (fun _ => body.due + 1) (tiebreaker body) fun body' _ => body'.due := by
  unfold tiebreaker
  refine affords_expect_bind (k := body.due + 1) (by decide) (fun _ _ => le_rfl)
    (fun label => affords_pure fun _ => ?_) ?_
  · simp only [RubricBody.due, List.length_append, List.length_singleton]
    omega
  · exact (affords_reportCurrent _ body.due).bind fun _ => affords_pure fun _ => le_rfl

/-- A list of tiebreakers, behind its keyword. -/
lemma affords_tiebreakers (body : RubricBody) :
    Affords (fun _ => body.due + 4) (tiebreakers body) fun body' _ => body'.due := by
  unfold tiebreakers
  refine (affords_expectMark _ _ (body.due + 3)).bind fun _ => ?_
  refine ((affords_listed affords_tiebreaker body).keep 2).bind fun body' => ?_
  refine (affords_expectMark _ _ (body'.due + 1)).bind fun _ => ?_
  exact (affords_expectMark _ _ body'.due).bind fun _ => affords_pure fun _ => le_rfl

lemma affords_rubricItem (body : RubricBody) :
    Affords (fun s => body.due + s.closedCredit) (rubricItem body) fun body' _ => body'.due := by
  have hdue : ∀ s : Checker, body.due ≤ body.due + s.closedCredit := fun s => Nat.le_add_right _ _
  unfold rubricItem
  refine affords_acceptWord_bind hdue (affords_criterion body) ?_
  refine affords_acceptWord_bind hdue (affords_tiebreakers body) ?_
  exact affords_leave_bind (affords_pure fun _ => Nat.le_add_right _ _)

lemma affords_compareAction : Affords (fun _ => 3) compareAction fun _ _ => 0 := by
  unfold compareAction
  refine (affords_expectKeyword _ _ 2).bind fun _ => ?_
  refine affords_expect_bind (k := 2) (by decide) (fun _ _ => le_rfl) (fun name => ?_) ?_
  · refine (affords_resolve _ _ name 5).bind fun _ => ?_
    exact (affords_expectMark _ _ 0).more fun _ => by omega
  · exact (affords_reportCurrent _ 1).bind fun _ => affords_expectMark _ _ 0

lemma affords_keepAction : Affords (fun _ => 3) keepAction fun _ _ => 0 := by
  unfold keepAction
  refine (affords_expectKeyword _ _ 2).bind fun _ => ?_
  exact affords_number_bind (k := 1) (affords_expectMark _ _ 0)

/-- An assignment of a cadence. Its key, if it is one, sets four credits free. -/
lemma affords_cadenceAssignment (seen : List String) :
    Affords (fun s => if s.isAt [.identifier] then 0 else 4) (cadenceAssignment seen)
      fun _ _ => 0 := by
  have hkey : Affords (fun s => if s.isAt [.identifier] then 0 else 4) advance fun _ _ => 4 := by
    intro s hs
    refine ⟨s.grows_skip.eof ▸ hs, ?_⟩
    dsimp only [advance_apply]
    split
    · rename_i hname
      exact Checker.weight_skip (Checker.atEnd_of_isAt hs (by decide) hname)
    · exact Nat.add_le_add_right s.weight_skip_le 4
  have hequals : Affords (fun _ => 4) (discard advance : Check Unit) fun _ _ => 4 :=
    fun s hs => ⟨s.grows_skip.eof ▸ hs, Nat.add_le_add_right s.weight_skip_le 4⟩
  have hend : ∀ keys : List String, Affords (fun _ => 1)
      (expectMark .semicolon "';' after cadence assignment" >>= fun _ => pure keys)
      fun _ _ => 0 :=
    fun keys => (affords_expectMark _ _ 0).bind fun _ => affords_pure fun _ => le_rfl
  unfold cadenceAssignment
  refine hkey.bind fun key => hequals.bind fun _ => affords_ite ?_ (affords_ite ?_ ?_)
  · exact (affords_expect _ 3).discard.bind fun _ => (hend _).more fun _ => by omega
  · exact (affords_number_bind (k := 1) (hend _)).more fun _ => by omega
  · refine (affords_report _ key 3).bind fun _ => ?_
    exact (affords_expect _ 2).discard.bind fun _ => (hend _).more fun _ => by omega

lemma affords_cadenceItem (seen : List String) :
    Affords (fun s => 0 + s.closedCredit) (cadenceItem seen) fun _ _ => 0 := by
  unfold cadenceItem
  refine affords_acceptWord_bind (k := 0) (fun _ => Nat.zero_le _) ?_ ?_
  · exact (affords_compareAction.keep 1).bind fun _ => affords_pure fun _ => by omega
  refine affords_acceptWord_bind (k := 0) (fun _ => Nat.zero_le _) ?_ ?_
  · exact (affords_keepAction.keep 1).bind fun _ => affords_pure fun _ => by omega
  intro s hs
  rw [if_neg Bool.false_ne_true, get_bind_apply, ite_apply]
  split
  · rename_i hassign
    rw [Bool.and_eq_true] at hassign
    obtain ⟨hs', hle⟩ := affords_cadenceAssignment seen s hs
    dsimp only at hle
    rw [if_pos hassign.1] at hle
    exact ⟨hs', hle.trans (Nat.le_add_right _ _)⟩
  · have hleft : Affords (fun _ => 0 + 3) (pure seen) fun _ _ => 0 :=
      affords_pure fun _ => Nat.zero_le _
    exact affords_leave_bind (g := fun _ => pure seen) hleft s hs

lemma affords_sourceFile (seen : List String) :
    Affords (fun _ => 0 + 1) (sourceFile seen) fun _ _ => 0 := by
  unfold sourceFile
  refine affords_expect_bind (k := 1) (by decide) (fun _ _ => le_rfl) (fun path => ?_) ?_
  · refine affords_when (k := 4) (affords_report _ path _) (affords_pure fun _ => Nat.zero_le _)
  · exact (affords_reportCurrent _ 0).bind fun _ => affords_pure fun _ => le_rfl

/-- What an artifact is made from. The keyword of a list of source files pays for the list. -/
lemma affords_origin (k : Nat) : Affords (fun _ => k + 1) origin fun _ _ => k := by
  unfold origin
  refine affords_acceptWord_bind (k := k + 1) (fun _ => le_rfl) ?_ ?_
  · exact (affords_expect _ (k + 4)).discard.mono (fun _ => le_rfl) fun _ _ => by omega
  refine affords_acceptWord_bind (k := k + 1) (fun _ => le_rfl) ?_ ?_
  · unfold sourceFiles
    refine (affords_expect _ (k + 4)).bind fun bracket => ?_
    have hpaths : Affords (fun _ => 0 + 1 + (k + 3)) (listed sourceFile [])
        fun _ _ => 0 + (k + 3) :=
      (affords_listed affords_sourceFile []).keep (k + 3)
    refine (hpaths.mono (fun _ => by omega) fun _ _ => le_rfl).bind fun seen => ?_
    refine (affords_expectMark _ _ (k + 2)).more (fun _ => by omega) |>.bind fun _ => ?_
    refine affords_ite (affords_get_bind fun r => ?_) (affords_pure fun _ => by omega)
    exact (affords_report _ _ (k + 1)).mono (fun _ => le_rfl) fun _ _ => by omega
  · exact affords_reportCurrent _ k

lemma affords_dependencies (k : Nat) : Affords (fun _ => k + 3) dependencies fun _ _ => k := by
  have hitem : Affords (fun _ => 0 + 1) dependency fun _ _ => 0 := by
    unfold dependency
    refine affords_expect_bind (k := 1) (by decide) (fun _ _ => le_rfl) (fun name => ?_) ?_
    · exact (affords_resolve _ _ name 4).mono (fun _ => le_rfl) fun _ _ => Nat.zero_le _
    · exact (affords_reportCurrent _ 0).bind fun _ => affords_pure fun _ => le_rfl
  unfold dependencies
  refine (affords_expectMark _ _ (k + 2)).bind fun _ => ?_
  have hitems : Affords (fun _ => 0 + 1 + (k + 1)) (listed (fun _ => dependency) ())
      fun _ _ => 0 + (k + 1) :=
    (affords_listed (fun _ => hitem) ()).keep (k + 1)
  refine (hitems.more fun _ => by omega).bind fun _ => ?_
  exact (affords_expectMark _ _ k).more fun _ => by omega

/-! ### Attachments -/

/-- A report takes nothing from what is lent on a name at hand. -/
lemma affords_report_name (f : Finding) (t : Token) (k : Nat) :
    Affords (fun s => k + 1 + s.nameCredit) (report f t) fun _ s => k + s.nameCredit := by
  intro s hs
  have hname : (report f t s).2.nameCredit = s.nameCredit := rfl
  refine ⟨hs, ?_⟩
  dsimp only
  rw [s.weight_report, hname]
  omega

lemma affords_reportCurrent_name (f : Finding) (k : Nat) :
    Affords (fun s => k + 1 + s.nameCredit) (reportCurrent f) fun _ s => k + s.nameCredit :=
  affords_get_bind fun r => affords_report_name f r.current k

lemma affords_resolve_name (kind : SymbolKind) (site : ReferenceSite) (name : Token) (k : Nat) :
    Affords (fun s => k + 1 + s.nameCredit) (resolve kind site name)
      fun _ s => k + s.nameCredit := by
  intro s hs
  rw [resolve_apply]
  split
  · exact ⟨hs, by dsimp only; omega⟩
  · exact affords_report_name _ name k s hs

/-- What follows the key of an attachment, in front of `g`. If nothing of it is there then no name
is at hand in the end. -/
lemma affords_assigned_bind {equals name semicolon : String} {g : Option Token → Check β}
    (hg : ∀ reference, Affords (fun s => k + 1 + s.nameCredit) (g reference) final) :
    Affords (fun _ => k + 4)
      (expectMark .equals equals >>= fun _ => expectName name >>= fun reference =>
        expectMark .semicolon semicolon >>= fun _ => g reference) final := by
  have hlent : ∀ s : Checker, s.nameCredit ≤ 1 := Checker.nameCredit_le
  have hsemicolon : ∀ reference, Affords (fun s => k + 2 + s.nameCredit)
      (expectMark .semicolon semicolon >>= fun _ => g reference) final := by
    intro reference
    change Affords _ (expect [.mark .semicolon] (.expected semicolon) >>= fun _ => g reference) _
    refine affords_expect_bind (k := k + 2) (by decide) (fun s _ => Nat.le_add_right _ _)
      (fun _ => (hg reference).more fun s => ?_) ?_
    · have := hlent s
      omega
    · exact (affords_reportCurrent_name _ (k + 1)).bind fun _ => hg reference
  have hmissing : Affords (fun s => k + 3 + s.nameCredit)
      (reportCurrent (.expected name) >>= fun _ =>
        expectMark .semicolon semicolon >>= fun _ => g none) final :=
    (affords_reportCurrent_name _ (k + 2)).bind fun _ => hsemicolon none
  refine (affords_expectMark _ _ (k + 3)).bind fun _ => ?_
  refine affords_expect_bind_of_missing (k := k + 3) (by decide) (fun _ _ => le_rfl)
    (fun reference => (hsemicolon _).more fun s => ?_) (fun s hname => ?_) hmissing
  · have := hlent s
    omega
  · rw [Checker.nameCredit, hname]
    exact le_rfl

/-- An attachment. -/
lemma affords_attachment (seen : List String) :
    Affords (fun s => s.nameCredit + s.closedCredit) (attachment seen)
      fun _ s => s.nameCredit := by
  have hleft : Affords (fun s => 0 + s.closedCredit)
      (reportCurrent (.expected "attachment key in create with-block") >>= fun _ =>
        recoverInBlock >>= fun _ => pure seen) fun _ s => s.nameCredit :=
    affords_leave_bind (g := fun _ => pure seen)
      (affords_pure fun s => s.nameCredit_le.trans (by omega))
  unfold attachment
  refine affords_expect_bind_of_missing (k := 1) (by decide) (fun s hname => ?_) (fun key => ?_)
    (fun s hname => ?_) hleft
  · rw [Checker.nameCredit, if_pos hname]
    omega
  · refine affords_when (k := 4) (affords_report _ key _) ?_
    -- a repeated key with nothing behind it makes five reports: one is paid with what was lent
    refine affords_assigned_bind (k := 0) fun reference => ?_
    split
    · exact (affords_report_name _ key 0).bind fun _ => affords_pure fun s => by omega
    · exact (affords_resolve_name _ _ _ 0).bind fun _ => affords_pure fun s => by omega
    · exact affords_pure fun s => Nat.le_add_left _ _
  · rw [Checker.nameCredit, hname]
    exact le_rfl

lemma affords_attachments (k : Nat) : Affords (fun _ => k + 3) attachments fun _ _ => k := by
  unfold attachments
  refine (affords_expectMark _ _ (k + 2)).bind fun _ => ?_
  have hitems : Affords (fun s => s.nameCredit + (k + 1)) (attachmentItems [])
      fun _ s => s.nameCredit + (k + 1) :=
    (affords_untilClosed affords_attachment []).keep (k + 1)
  refine (hitems.discard.more fun s => ?_).bind fun _ => ?_
  · have := s.nameCredit_le
    omega
  · exact (affords_expectMark _ _ k).more fun _ => by omega

/-! ## Statements -/

/-- A statement that starts with a name. Without it, all that is left is the recovery. -/
lemma affords_name_bind {what : String} {f : Option Token → Check Unit}
    (hsome : ∀ name, Affords (fun _ => 8) (f (some name)) fun _ _ => 0)
    (hnone : f none = recoverStatement) :
    Affords (fun _ => 4) (expectName what >>= f) fun _ _ => 0 := by
  refine affords_expect_bind (k := 4) (by decide) (fun _ _ => le_rfl) hsome ?_
  rw [hnone]
  exact (affords_reportCurrent _ 3).bind fun _ =>
    (affords_recover endsStatement 3).mono (fun _ => le_rfl) fun _ _ => Nat.zero_le _

lemma affords_juliet : Affords (fun _ => 4) juliet fun _ _ => 0 := by
  have hrest : Affords (fun _ => 3)
      ((modify fun s => { s with julietSeen := true } : Check PUnit) >>= fun _ =>
        expectMark .openBrace "'\x7b' after 'juliet'" >>= fun _ => julietItems >>= fun _ =>
          expectMark .closeBrace "'\x7d' to close juliet block") fun _ _ => 0 := by
    have hmark : Affords (fun _ => 3)
        (modify fun s => { s with julietSeen := true } : Check PUnit) fun _ _ => 3 :=
      fun s hs => ⟨hs, le_rfl⟩
    refine hmark.bind fun _ => (affords_expectMark _ _ 2).bind fun _ => ?_
    have hitems : Affords (fun _ => 0 + 2) julietItems fun _ _ => 0 + 2 :=
      (affords_untilClosed (fun _ => affords_julietItem) ()).keep 2
    refine hitems.bind fun _ => ?_
    exact (affords_expectMark _ _ 0).more fun _ => by omega
  unfold juliet
  refine affords_get_bind fun r => affords_when (k := 3) (affords_reportPrevious _ 3) hrest

lemma affords_policy : Affords (fun _ => 4) policy fun _ _ => 0 := by
  unfold policy
  refine affords_name_bind (fun name => ?_) rfl
  refine (affords_define _ name 7).bind fun _ => (affords_expectMark _ _ 6).bind fun _ => ?_
  refine (affords_expect _ 5).discard.bind fun _ => ?_
  exact (affords_expectMark _ _ 0).more fun _ => by omega

lemma affords_matchTiebreakers (body : RubricBody) (k : Nat) :
    Affords (fun _ => k + body.due) (matchTiebreakers body) fun _ _ => k :=
  affords_forM (fun label k => affords_ite (affords_pure fun _ => Nat.le_succ k)
    (affords_report _ label k)) body.tiebreakers k

lemma affords_rubric : Affords (fun _ => 4) rubric fun _ _ => 0 := by
  unfold rubric
  refine affords_name_bind (fun name => ?_) rfl
  refine (affords_define _ name 7).bind fun _ => (affords_expectMark _ _ 6).bind fun _ => ?_
  have hitems : Affords (fun _ => 0 + 6) (rubricItems ⟨[], []⟩) fun body _ => body.due + 6 :=
    (affords_untilClosed affords_rubricItem ⟨[], []⟩).keep 6
  refine hitems.bind fun body => (affords_expectMark _ _ (body.due + 5)).bind fun _ => ?_
  -- what the items have kept back pays for the tiebreakers that match no criterion
  exact (affords_matchTiebreakers body 0).more fun _ => by omega

lemma affords_requireCountKeys (name : Token) (seen : List String) (k : Nat) :
    Affords (fun _ => k + 2) (requireCountKeys name seen) fun _ _ => k :=
  affords_forM (fun _ k => affords_ite (affords_pure fun _ => Nat.le_succ k)
    (affords_report _ name k)) countKeys k

lemma affords_cadence : Affords (fun _ => 4) cadence fun _ _ => 0 := by
  unfold cadence
  refine affords_name_bind (fun name => ?_) rfl
  refine (affords_define _ name 7).bind fun _ => (affords_expectMark _ _ 6).bind fun _ => ?_
  have hitems : Affords (fun _ => 0 + 6) (cadenceItems []) fun _ _ => 0 + 6 :=
    (affords_untilClosed affords_cadenceItem []).keep 6
  refine hitems.bind fun seen => (affords_expectMark _ _ 5).bind fun _ => ?_
  exact (affords_requireCountKeys name seen 0).more fun _ => by omega

lemma affords_create : Affords (fun _ => 4) create fun _ _ => 0 := by
  unfold create
  refine affords_name_bind (fun name => ?_) rfl
  have hend : Affords (fun _ => 2) (expectMark .semicolon "';' after create statement" >>= fun _ =>
      define .artifact name) fun _ _ => 0 :=
    (affords_expectMark _ _ 1).bind fun _ => affords_define _ name 0
  have hwith : Affords (fun _ => 2) (acceptWord "with" >>= fun found =>
      if found then attachments >>= fun _ => expectMark .semicolon "';' after create statement" >>=
        fun _ => define .artifact name
      else expectMark .semicolon "';' after create statement" >>= fun _ =>
        define .artifact name) fun _ _ => 0 := by
    refine affords_acceptWord_bind (k := 2) (fun _ => le_rfl) ?_ hend
    exact ((affords_attachments 3).bind fun _ => hend.more fun _ => by omega).more fun _ => by omega
  refine (affords_expectKeyword _ _ 7).bind fun _ => (affords_origin 6).bind fun _ => ?_
  refine affords_acceptWord_bind (k := 6) (fun _ => le_rfl) ?_ (hwith.more fun _ => by omega)
  exact (affords_dependencies 7).bind fun _ => hwith.more fun _ => by omega

lemma affords_extend : Affords (fun _ => 4) extend fun _ _ => 0 := by
  have hrest : Affords (fun _ => 5)
      (expectKeyword "with" "'with' after extend target" >>= fun _ =>
        discard (expectLiteral "string or block string after 'with'") >>= fun _ =>
          expectMark .semicolon "';' after extend statement") fun _ _ => 0 := by
    refine (affords_expectKeyword _ _ 4).bind fun _ => (affords_expect _ 3).discard.bind fun _ => ?_
    exact (affords_expectMark _ _ 0).more fun _ => by omega
  unfold extend
  refine affords_name_bind (fun name => ?_) rfl
  refine (affords_resolve _ _ name 7).bind fun _ => (affords_expectMark _ _ 6).bind fun _ => ?_
  refine affords_expect_bind (k := 6) (by decide) (fun _ _ => le_rfl) (fun target => ?_) ?_
  · exact affords_unless (k := 9) (affords_report _ target 9) (hrest.more fun _ => by omega)
  · exact (affords_reportCurrent _ 5).bind fun _ => hrest

lemma affords_halt : Affords (fun _ => 4) halt fun _ _ => 0 := by
  have hend : Affords (fun _ => 3) (expectMark .semicolon "';' after halt statement")
      fun _ _ => 0 :=
    (affords_expectMark _ _ 0).more fun _ => by omega
  unfold halt
  exact affords_get_bind fun r => affords_unless (k := 3) (affords_expect _ 3).discard hend

/-- **Four credits pay for a statement** behind its keyword. -/
lemma affords_statement (kind : StatementKind) : Affords (fun _ => 4) (statement kind)
    fun _ _ => 0 := by
  cases kind with
  | juliet => exact affords_juliet
  | policy => exact affords_policy
  | rubric => exact affords_rubric
  | cadence => exact affords_cadence
  | create => exact affords_create
  | extend => exact affords_extend
  | halt => exact affords_halt

/-! ## Scripts -/

/-- A round over a script pays for its reports out of the token that it passes. -/
lemma weight_scriptItem_le {s : Checker} (hs : s.eof.kind = .eof) (hgo : s.atEnd = false) :
    (scriptItem s).2.eof.kind = .eof ∧ (scriptItem s).2.weight ≤ s.weight := by
  rw [scriptItem, get_bind_apply]
  cases hkind : StatementKind.ofToken? s.current with
  | some kind =>
    obtain ⟨hs', hle⟩ := affords_statement kind s.skip (s.grows_skip.eof ▸ hs)
    exact ⟨hs', hle.trans (Checker.weight_skip hgo)⟩
  | none =>
    -- the recovery passes a token, which pays for the complaint
    set r := (reportCurrent (.expected
      "a top-level statement: juliet, policy, rubric, cadence, create, extend, or halt") s).2
    have hgrows : r.Grows (recoverStatement r).2 := grows_recover endsStatement r
    have hpasses : Passes recoverStatement r := by
      refine passes_recover hgo fun hstop => ?_
      replace hstop : endsStatement s.current = true := hstop
      rw [endsStatement, hkind, Option.isSome_none, Bool.or_false, beq_iff_eq] at hstop
      exact hstop
    have hrecover := Checker.weight_of_passed hpasses (reports_recover endsStatement r)
    have hreport : r.weight = s.weight + 1 := s.weight_report _ s.current
    refine ⟨hgrows.eof ▸ hs, ?_⟩
    change (recoverStatement r).2.weight ≤ s.weight
    omega

/-- **A check of a script** is paid for by the tokens ahead. -/
lemma weight_script_le {s : Checker} (hs : s.eof.kind = .eof) : (script s).2.weight ≤ s.weight := by
  induction hn : s.ahead.length using Nat.strongRecOn generalizing s with
  | _ n ih =>
    subst hn
    rw [script_apply]
    cases hend : s.atEnd with
    | true => exact le_rfl
    | false =>
      obtain ⟨hs', hle⟩ := weight_scriptItem_le hs hend
      rw [if_neg Bool.false_ne_true]
      split
      · rename_i hlt
        exact (ih _ hlt hs' rfl).trans hle
      · exact hle

/-- **At most four reports for each token.** Whatever tokens there are in front of the end, a check
makes at most four times as many reports, in the order of the reports as in reading order.

**Proof sketch.** The state never becomes worth more (`weight_script_le`). At the start it is worth
four for each token, apart from what had been reported earlier. -/
theorem reports_at_most_four_per_token (t : TokenStream) (earlier : List Diagnostic) :
    let s := finish (.start t.tokens t.eof earlier)
    s.reported.length ≤ earlier.length + 4 * t.tokens.length ∧
      s.diagnostics.length ≤ earlier.length + 4 * t.tokens.length := by
  intro s
  have hstart : (Checker.start t.tokens t.eof earlier).weight =
      earlier.length + 4 * t.tokens.length := by
    rw [Checker.weight, Checker.start, List.length_reverse]
  have hweight : s.weight ≤ earlier.length + 4 * t.tokens.length :=
    hstart ▸ weight_script_le t.eof_kind
  have hreported : s.reported.length ≤ earlier.length + 4 * t.tokens.length := by
    rw [Checker.reported, List.length_reverse]
    exact (Nat.le_add_right _ _).trans hweight
  refine ⟨hreported, ?_⟩
  rwa [Checker.diagnostics, Diagnostic.sort, List.length_mergeSort]

end Check

/-! ## The bound cannot be lowered -/

/-- A criterion of which nothing is there makes four reports. -/
lemma Check.criterion_of_missing {s : Checker} (hliteral : s.isAt TokenKind.literals = false)
    (hpoints : s.isAtWord "points" = false) (hnumber : s.isAt [.number] = false)
    (hmeans : s.isAtWord "means" = false) (hend : s.isAt [.mark .semicolon] = false)
    (body : RubricBody) :
    ∃ found, found.length = 4 ∧
      criterion body s = (body, { s with reports := found ++ s.reports }) := by
  have hat : ∀ kinds reports, { s with reports := reports }.isAt kinds = s.isAt kinds :=
    fun _ _ => rfl
  have hword : ∀ word reports, { s with reports := reports }.isAtWord word = s.isAtWord word :=
    fun _ _ => rfl
  simp only [criterion, expectLiteral, expectKeyword, expectNumber, expectMark, bind_apply,
    discard_apply, expect_apply, expectWord_apply, acceptWord_apply, report_apply, requirePositive,
    pure_apply, hat, hword, hliteral, hpoints, hnumber, hmeans, hend, Bool.false_eq_true, if_false]
  exact ⟨[_, _, _, _], rfl, rfl⟩

/-! A rubric of `k` criteria of which there are only the keywords:

    rubric R { criterion criterion
-/

namespace BareCriteria

/-- The keyword of the rubric. -/
def keyword : Token := ⟨.identifier, "rubric", ⟨⟨0, 0⟩, ⟨0, 6⟩⟩⟩

/-- The name of the rubric. -/
def name : Token := ⟨.identifier, "R", ⟨⟨0, 7⟩, ⟨0, 8⟩⟩⟩

/-- The brace that opens the rubric. -/
def brace : Token := ⟨.mark .openBrace, "\x7b", ⟨⟨0, 9⟩, ⟨0, 10⟩⟩⟩

/-- The keyword of a criterion. -/
def criterion : Token := ⟨.identifier, "criterion", ⟨⟨0, 11⟩, ⟨0, 20⟩⟩⟩

/-- The end. -/
def eof : Token := .eofAt ⟨0, 20⟩

/-- The tokens of the rubric. -/
def stream (k : Nat) : TokenStream where
  tokens := keyword :: name :: brace :: List.replicate k criterion
  eof := eof
  eof_kind := rfl
  kind_ne_eof := by simp [keyword, name, brace, criterion]

variable {k : Nat} {s : Checker}

/-- In front of keywords of criteria there is none of the parts of a criterion. -/
lemma isAt_eq_false (heof : s.eof = eof) (hahead : s.ahead = List.replicate k criterion)
    {kinds : List TokenKind} (hname : .identifier ∉ kinds) (hend : .eof ∉ kinds) :
    s.isAt kinds = false := by
  rw [Checker.isAt, Checker.current, hahead, heof]
  cases k with
  | zero => simpa [eof, Token.eofAt] using hend
  | succ k => simpa [List.replicate_succ, criterion] using hname

lemma isAtWord_eq_false (heof : s.eof = eof) (hahead : s.ahead = List.replicate k criterion)
    {word : String} (hword : "criterion" ≠ word) : s.isAtWord word = false := by
  rw [Checker.isAtWord, Checker.current, hahead, heof]
  cases k with
  | zero => simp [Token.isWord, eof, Token.eofAt]
  | succ k => simp [Token.isWord, List.replicate_succ, criterion, hword]

/-- Each keyword makes four reports. -/
lemma rubricItems_apply (k : Nat) (past : List Token) (reports : List Diagnostic)
    (definitions : List Definition) (body : Check.RubricBody) :
    ∃ past' found, found.length = 4 * k ∧
      Check.rubricItems body ⟨past, List.replicate k criterion, eof, reports, definitions, false⟩ =
        (body, ⟨past', [], eof, found ++ reports, definitions, false⟩) := by
  induction k generalizing past reports with
  | zero =>
    refine ⟨past, [], rfl, ?_⟩
    rw [Check.rubricItems, Check.untilClosed_apply]
    simp [Checker.atEnd]
  | succ k ih =>
    let s : Checker :=
      ⟨criterion :: past, List.replicate k criterion, eof, reports, definitions, false⟩
    have hat : ∀ {kinds}, .identifier ∉ kinds → .eof ∉ kinds → s.isAt kinds = false :=
      isAt_eq_false rfl rfl
    have hword : ∀ {word}, "criterion" ≠ word → s.isAtWord word = false :=
      isAtWord_eq_false rfl rfl
    obtain ⟨found, hfound, hcriterion⟩ := Check.criterion_of_missing (hat (by decide) (by decide))
      (hword (by decide)) (hat (by decide) (by decide)) (hword (by decide))
      (hat (by decide) (by decide)) body
    have hitem : Check.rubricItem body ⟨past, criterion :: List.replicate k criterion, eof, reports,
        definitions, false⟩ = (body, { s with reports := found ++ reports }) := by
      have hkeyword : criterion.isWord "criterion" = true := by decide
      rw [Check.rubricItem, Check.bind_apply, Check.acceptWord_apply, Checker.isAtWord_cons,
        if_pos hkeyword, if_pos rfl]
      exact hcriterion
    obtain ⟨past', others, hothers, hrest⟩ := ih (criterion :: past) (found ++ reports)
    refine ⟨past', others ++ found, by rw [List.length_append]; omega, ?_⟩
    rw [List.replicate_succ, Check.rubricItems, Check.untilClosed_apply,
      if_neg (by simp [criterion]), hitem, if_pos (by simp [s]), List.append_assoc]
    exact hrest

/-- The state behind the rubric. -/
lemma scriptItem_apply (k : Nat) :
    ∃ past found, found.length = 4 * k + 1 ∧
      Check.scriptItem (.start (stream k).tokens eof []) =
        ((), ⟨past, [], eof, found, [⟨.rubric, name⟩], false⟩) := by
  obtain ⟨past, found, hfound, hitems⟩ :=
    rubricItems_apply k [brace, name, keyword] [] [⟨.rubric, name⟩] ⟨[], []⟩
  refine ⟨past, ⟨.expected "'\x7d' to close rubric block", eof.range⟩ :: found, ?_, ?_⟩
  · rw [List.length_cons, hfound]
  have hkind : StatementKind.ofToken? keyword = some .rubric := by decide
  have hname : name.kind ∈ [TokenKind.identifier] := by decide
  have hopen : ∀ what, Check.expectMark .openBrace what
      ⟨[name, keyword], brace :: List.replicate k criterion, eof, [], [⟨.rubric, name⟩], false⟩ =
        ((), ⟨[brace, name, keyword], List.replicate k criterion, eof, [], [⟨.rubric, name⟩],
          false⟩) := by
    intro what
    rw [Check.expectMark, Check.discard_apply, Check.expect_of_mem (by decide)]
  have hbehind : Check.scriptItem (.start (stream k).tokens eof []) = Check.rubric
      ⟨[keyword], name :: brace :: List.replicate k criterion, eof, [], [], false⟩ := by
    rw [Check.scriptItem, Check.get_bind_apply, Checker.start, stream, Checker.current_cons, hkind]
    rfl
  rw [hbehind, Check.rubric, Check.bind_apply, Check.expectName, Check.expect_of_mem hname]
  dsimp only
  rw [Check.bind_apply, Check.define_apply, if_neg (by simp [Checker.isDefined]), Check.bind_apply,
    hopen, Check.bind_apply, hitems, List.append_nil]
  rfl

end BareCriteria

/-- **The bound cannot be lowered**: `k + 3` tokens may make `4 * k + 1` reports. -/
theorem Check.length_reported_bareCriteria (k : Nat) :
    (BareCriteria.stream k).tokens.length = k + 3 ∧
      (finish (.start (BareCriteria.stream k).tokens BareCriteria.eof [])).reported.length =
        4 * k + 1 := by
  obtain ⟨past, found, hfound, hitem⟩ := BareCriteria.scriptItem_apply k
  refine ⟨by simp [BareCriteria.stream], ?_⟩
  rw [finish, script_apply, if_neg (by simp [Checker.start, BareCriteria.stream]), hitem,
    if_pos (by simp [Checker.start, BareCriteria.stream]), script_of_ahead_eq_nil rfl,
    Checker.reported, List.length_reverse, hfound]

end WorkflowLint
