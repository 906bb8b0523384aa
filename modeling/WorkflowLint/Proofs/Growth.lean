import WorkflowLint.Proofs.Coupling

/-!
# The state of a check only grows

A check goes forward over its tokens and adds to what it has collected. It never takes back a
report, never drops or replaces a definition, and never forgets that there was a `juliet` block.
This is said once, as a preorder on states, and shown for everything that a check can be told to do.

Statements and scripts need no proofs of their own here: a check that is coupled with itself keeps
whatever its building blocks keep.

## Main definitions

* `WorkflowLint.Checker.Distinct` — no name is defined twice in one space.
* `WorkflowLint.Checker.Grows` — what one state has become in another.
* `WorkflowLint.growth` — the coupling of a check with itself.
* `WorkflowLint.Check.Call`, `WorkflowLint.Check.runCalls` — moves and free reports, one after the
  other.

## Main results

* `WorkflowLint.Check.grows_statement`, `WorkflowLint.Check.grows_script` — statements and scripts
  let the state grow.
* `WorkflowLint.Check.grows_move`, `WorkflowLint.Check.grows_runCalls` — so does all that a check
  can be told.
-/

set_option autoImplicit false

namespace WorkflowLint

/-! ## Growth -/

namespace Checker

/-- No name is defined twice in one space. -/
def Distinct (s : Checker) : Prop :=
  s.definitions.Pairwise fun d e => d.kind = e.kind → d.token.text ≠ e.token.text

/-- The state `s` has become `s'`: the tokens are the same, of which more may have been passed, and
more may have been collected. -/
structure Grows (s s' : Checker) : Prop where
  tokens : s'.past.reverse ++ s'.ahead = s.past.reverse ++ s.ahead
  eof : s'.eof = s.eof
  past : s.past <:+ s'.past
  reports : s.reports <:+ s'.reports
  definitions : s.definitions <:+ s'.definitions
  distinct : s.Distinct → s'.Distinct
  julietSeen : s.julietSeen = true → s'.julietSeen = true

namespace Grows

variable {s s' s'' : Checker}

lemma refl (s : Checker) : s.Grows s :=
  ⟨rfl, rfl, List.suffix_rfl, List.suffix_rfl, List.suffix_rfl, id, id⟩

lemma trans (h : s.Grows s') (h' : s'.Grows s'') : s.Grows s'' where
  tokens := h'.tokens.trans h.tokens
  eof := h'.eof.trans h.eof
  past := h.past.trans h'.past
  reports := h.reports.trans h'.reports
  definitions := h.definitions.trans h'.definitions
  distinct hs := h'.distinct (h.distinct hs)
  julietSeen hs := h'.julietSeen (h.julietSeen hs)

/-! ### What growth means for the views of a state -/

/-- The number of tokens passed does not decrease. -/
lemma index_le (h : s.Grows s') : s.index ≤ s'.index := h.past.length_le

/-- The tokens ahead are those of before, without some that have been passed. -/
lemma exists_ahead (h : s.Grows s') : ∃ ts, s.ahead = ts ++ s'.ahead := by
  obtain ⟨new, hnew⟩ := h.past
  have htokens := h.tokens
  rw [← hnew, List.reverse_append, List.append_assoc, List.append_cancel_left_eq] at htokens
  exact ⟨new.reverse, htokens.symm⟩

lemma length_ahead_le (h : s.Grows s') : s'.ahead.length ≤ s.ahead.length := by
  obtain ⟨ts, hts⟩ := h.exists_ahead
  rw [hts, List.length_append]
  omega

/-- Reports are only added at the end. -/
lemma reported_prefix (h : s.Grows s') : s.reported <+: s'.reported :=
  List.reverse_prefix.2 h.reports

/-- Entries are only added at the end of a table. -/
lemma table_prefix (h : s.Grows s') (kind : SymbolKind) : s.table kind <+: s'.table kind :=
  ((List.reverse_prefix.2 h.definitions).filter _).map _

end Grows

/-- In a table of distinct names, no two tokens have the same text. -/
lemma Distinct.nodup_table {s : Checker} (h : s.Distinct) (kind : SymbolKind) :
    ((s.table kind).map Token.text).Nodup := by
  rw [table, List.map_map, List.filter_reverse, List.map_reverse, List.Nodup,
    List.pairwise_reverse, List.pairwise_map]
  have hkind : (s.definitions.filter fun d => d.kind == kind).Pairwise fun d e =>
      d.kind = e.kind → d.token.text ≠ e.token.text := h.filter _
  refine hkind.imp_of_mem fun hd he hne => (hne ?_).symm
  have hd' := List.of_mem_filter hd
  have he' := List.of_mem_filter he
  rw [beq_iff_eq] at hd' he'
  rw [hd', he']

end Checker

/-! ## Building blocks -/

namespace Checker

lemma grows_skip (s : Checker) : s.Grows s.skip := by
  obtain ⟨past, ahead, eof, reports, definitions, seen⟩ := s
  cases ahead with
  | nil => exact .refl _
  | cons t ts =>
    refine ⟨?_, rfl, List.suffix_cons t past, List.suffix_rfl, List.suffix_rfl, id, id⟩
    simp [skip]

lemma grows_skipWhile (s : Checker) (p : Token → Bool) : s.Grows (s.skipWhile p) := by
  refine ⟨?_, rfl, List.suffix_append _ _, List.suffix_rfl, List.suffix_rfl, id, id⟩
  simp [skipWhile, List.takeWhile_append_dropWhile]

end Checker

namespace Check

lemma grows_report (f : Finding) (t : Token) (s : Checker) : s.Grows (report f t s).2 :=
  ⟨rfl, rfl, List.suffix_rfl, List.suffix_cons _ _, List.suffix_rfl, id, id⟩

/-- A name is entered only if its space does not hold it. -/
lemma grows_define (kind : SymbolKind) (name : Token) (s : Checker) :
    s.Grows (define kind name s).2 := by
  rw [define_apply]
  split
  · exact grows_report _ _ _
  · rename_i hfree
    refine ⟨rfl, rfl, List.suffix_rfl, List.suffix_rfl, List.suffix_cons _ _, fun hs => ?_, id⟩
    refine List.pairwise_cons.2 ⟨fun d hd hkind htext => hfree ?_, hs⟩
    exact List.any_eq_true.2 ⟨d, hd, by simpa using ⟨hkind.symm, htext.symm⟩⟩

lemma grows_resolve (kind : SymbolKind) (site : ReferenceSite) (name : Token) (s : Checker) :
    s.Grows (resolve kind site name s).2 := by
  rw [resolve_apply]
  split
  · exact .refl s
  · exact grows_report _ _ _

lemma grows_accept (kind : TokenKind) (s : Checker) : s.Grows (accept kind s).2 := by
  rw [accept_apply]
  split
  · exact s.grows_skip
  · exact .refl s

lemma grows_acceptWord (word : String) (s : Checker) : s.Grows (acceptWord word s).2 := by
  rw [acceptWord_apply]
  split
  · exact s.grows_skip
  · exact .refl s

lemma grows_expect (kinds : List TokenKind) (complaint : Finding) (s : Checker) :
    s.Grows (expect kinds complaint s).2 := by
  rw [expect_apply]
  split
  · exact s.grows_skip
  · exact grows_report _ _ _

lemma grows_expectWord (word : String) (complaint : Finding) (s : Checker) :
    s.Grows (expectWord word complaint s).2 := by
  rw [expectWord_apply]
  split
  · exact s.grows_skip
  · exact grows_report _ _ _

lemma grows_recover (stop : Token → Bool) (s : Checker) : s.Grows (recover stop s).2 :=
  (s.grows_skipWhile _).trans (grows_accept _ _)

end Check

/-! ## Statements and scripts -/

lemma word_refl {w : String} (_ : w ∈ words) : w = w := rfl

lemma allBlank_congr {x x' : String} (h : x = x') : Text.allBlank x = Text.allBlank x' :=
  congrArg Text.allBlank h

/-- The coupling of a check with itself, for what has become of the state `base`. -/
def growth (base : Checker) : Coupling where
  token := Eq
  name := Eq
  literal := Eq
  state s s' := s = s' ∧ base.Grows s
  kind_eq h := congrArg Token.kind h
  name_text h _ := congrArg Token.text h
  number_text h _ := congrArg Token.text h
  literal_text h _ := congrArg Token.text h
  name_eq_iff := @Eq.congr String
  name_word := @word_refl
  literal_eq_iff := @Eq.congr String
  allBlank_eq := @allBlank_congr
  ahead := by
    rintro s _ ⟨rfl, -⟩
    exact List.forall₂_refl _
  eof := by
    rintro s _ ⟨rfl, -⟩
    rfl
  skip := by
    rintro s _ ⟨rfl, h⟩
    exact ⟨rfl, h.trans s.grows_skip⟩
  report := by
    rintro s _ t _ f f' ⟨rfl, h⟩ rfl hf
    rw [← hf.eq]
    exact ⟨rfl, h.trans (Check.grows_report _ _ _)⟩
  define := by
    rintro s _ t _ kind ⟨rfl, h⟩ rfl -
    exact ⟨rfl, h.trans (Check.grows_define _ _ _)⟩
  resolve := by
    rintro s _ t _ kind site ⟨rfl, h⟩ rfl -
    exact ⟨rfl, h.trans (Check.grows_resolve _ _ _ _)⟩
  juliet := by
    rintro s _ t _ ⟨rfl, h⟩ rfl
    refine ⟨rfl, h.trans ?_⟩
    split
    · exact ⟨rfl, rfl, List.suffix_rfl, List.suffix_cons _ _, List.suffix_rfl, id, fun _ => rfl⟩
    · exact ⟨rfl, rfl, List.suffix_rfl, List.suffix_rfl, List.suffix_rfl, id, fun _ => rfl⟩

namespace Check

/-- **A statement lets the state grow**, wherever it is entered. -/
lemma grows_statement (kind : StatementKind) (s : Checker) : s.Grows (statement kind s).2 := by
  have hprevious : ∀ {r r'}, (growth s).state r r' → (growth s).token r.previous r'.previous := by
    rintro r _ ⟨rfl, -⟩
    rfl
  exact (coupled_statement hprevious kind s s ⟨rfl, .refl s⟩).2.2

/-- **A script lets the state grow.** -/
lemma grows_script (s : Checker) : s.Grows (script s).2 :=
  (coupled_script (C := growth s) s s ⟨rfl, .refl s⟩).2.2

/-! ## Calls -/

/-- **Every move lets the state grow.** -/
lemma grows_move (m : Move) (s : Checker) : s.Grows (m.run s).2 := by
  cases m with
  | advance => exact s.grows_skip
  | accept kind => exact grows_accept kind s
  | acceptWord word => exact grows_acceptWord word s
  | expect kinds complaint => exact grows_expect kinds complaint s
  | expectWord word complaint => exact grows_expectWord word complaint s
  | expectEngine => exact grows_expect _ _ s
  | recoverStatement => exact grows_recover _ s
  | recoverInBlock => exact grows_recover _ s
  | statement kind => exact grows_statement kind s
  | reportCurrent finding => exact grows_report _ _ s
  | reportPrevious finding => exact grows_report _ _ s
  | defineCurrent kind => exact grows_define kind _ s
  | script => exact grows_script s

/-- What a check can be told from outside: to make a move, or to report on any token. -/
inductive Call where
  | move (m : Move)
  | report (finding : Finding) (t : Token)
  deriving DecidableEq, Repr

/-- The state behind a call. -/
def Call.run : Call → Checker → Checker
  | .move m, s => (m.run s).2
  | .report finding t, s => (Check.report finding t s).2

/-- The state behind some calls, one after the other. -/
def runCalls (calls : List Call) (s : Checker) : Checker := calls.foldl (fun s c => c.run s) s

lemma grows_call (c : Call) (s : Checker) : s.Grows (c.run s) := by
  cases c with
  | move m => exact grows_move m s
  | report finding t => exact grows_report finding t s

/-- **Every sequence of calls lets the state grow.** -/
lemma grows_runCalls (calls : List Call) (s : Checker) : s.Grows (runCalls calls s) := by
  induction calls generalizing s with
  | nil => exact .refl s
  | cons c calls ih => exact (grows_call c s).trans (ih _)

end Check

end WorkflowLint
