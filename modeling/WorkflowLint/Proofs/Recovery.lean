import WorkflowLint.Proofs.Execution

/-!
# Recovery isolates garbage

Where a loop finds tokens that start nothing it knows, it complains about the first of them and
leaves the stretch behind: up to and including the next semicolon, whatever else is in between. The
state behind is the state before, with the stretch passed and one more report; nothing that the
check has collected is touched, and the loop goes on as if it had begun there.

Five loops recover in this way. The loop over the statements of a script stops early in front of a
keyword of a statement, the loops over the items of a block in front of a closing brace.

## Main definitions

* `WorkflowLint.Checker.leave` — the state behind a stretch that has been complained about.
* `WorkflowLint.Check.Block` — the loops over the items of a block, with their complaints and what
  starts an item.

## Main results

* `WorkflowLint.Check.scriptItem_of_stray`, `WorkflowLint.Check.Block.item_of_stray` — one round of
  a loop in front of garbage.
* `WorkflowLint.Check.garbage_isolated` — garbage costs one report and nothing else.
* `WorkflowLint.Check.script_of_stretches` — so does each of many stretches in a row.
-/

set_option autoImplicit false

namespace WorkflowLint

/-- The state behind the tokens `stretch`, the first of which has been complained about. -/
def Checker.leave (s : Checker) (stretch rest : List Token) (complaint : Finding) : Checker :=
  { s with
    past := stretch.reverse ++ s.past
    ahead := rest
    reports := ⟨complaint, s.current.range⟩ :: s.reports }

namespace Check

variable {α : Type} {s : Checker} {garbage rest : List Token} {semicolon : Token}

/-! ## Leaving a stretch behind -/

/-- The tokens in front of the first that stops a recovery are passed. -/
lemma skipWhile_of_ahead {stop : Token → Bool} {t : Token} (hahead : s.ahead = garbage ++ t :: rest)
    (hgarbage : ∀ u ∈ garbage, stop u = false) (hstop : stop t = true) :
    s.skipWhile (fun u => !stop u) =
      { s with past := garbage.reverse ++ s.past, ahead := t :: rest } := by
  have hpass : ∀ u ∈ garbage, (!stop u) = true := by simpa using hgarbage
  have htake : (s.ahead.takeWhile fun u => !stop u) = garbage := by
    rw [hahead, List.takeWhile_append_of_pos hpass]
    simp [hstop]
  have hdrop : (s.ahead.dropWhile fun u => !stop u) = t :: rest := by
    rw [hahead, List.dropWhile_append_of_pos hpass]
    simp [hstop]
  rw [Checker.skipWhile, htake, hdrop]

/-- **Recovery goes behind the first semicolon**, if nothing in front of it stops it. -/
lemma recover_of_ahead {stop : Token → Bool} (hahead : s.ahead = garbage ++ semicolon :: rest)
    (hgarbage : ∀ t ∈ garbage, stop t = false) (hstop : stop semicolon = true)
    (hkind : semicolon.kind = .mark .semicolon) :
    recover stop s =
      ((), { s with past := semicolon :: (garbage.reverse ++ s.past), ahead := rest }) := by
  simp [recover, skipWhile_of_ahead hahead hgarbage hstop, accept_apply, hkind]

/-- **Recovery stays in front of anything else that stops it.** -/
lemma recover_of_keyword {stop : Token → Bool} {t : Token} (hahead : s.ahead = garbage ++ t :: rest)
    (hgarbage : ∀ u ∈ garbage, stop u = false) (hstop : stop t = true)
    (hkind : t.kind ≠ .mark .semicolon) :
    recover stop s = ((), { s with past := garbage.reverse ++ s.past, ahead := t :: rest }) := by
  simp [recover, skipWhile_of_ahead hahead hgarbage hstop, accept_apply, hkind]

/-- A complaint and the recovery behind it leave the stretch behind. -/
lemma reportCurrent_recover {stop : Token → Bool} (complaint : Finding)
    (hahead : s.ahead = garbage ++ semicolon :: rest) (hgarbage : ∀ t ∈ garbage, stop t = false)
    (hstop : stop semicolon = true) (hkind : semicolon.kind = .mark .semicolon) :
    (reportCurrent complaint >>= fun _ => recover stop) s =
      ((), s.leave (garbage ++ [semicolon]) rest complaint) := by
  have hrun := recover_of_ahead (s := (reportCurrent complaint s).2) hahead hgarbage hstop hkind
  rw [bind_apply, hrun]
  simp [reportCurrent, Checker.leave]

/-- What is ahead behind a stretch is shorter. -/
lemma length_leave_lt (hahead : s.ahead = garbage ++ semicolon :: rest) (complaint : Finding) :
    (s.leave (garbage ++ [semicolon]) rest complaint).ahead.length < s.ahead.length := by
  simp only [Checker.leave, hahead, List.length_append, List.length_cons]
  omega

/-- The token at hand is the first of the garbage, or else the semicolon. -/
lemma current_eq (hahead : s.ahead = garbage ++ semicolon :: rest) :
    s.current = garbage.headD semicolon := by
  rw [Checker.current, hahead]
  cases garbage <;> rfl

lemma current_mem (hahead : s.ahead = garbage ++ semicolon :: rest) :
    s.current ∈ garbage ∨ s.current = semicolon := by
  rw [current_eq hahead]
  cases garbage <;> simp

/-! ## Scripts -/

/-- What a script is told where no statement starts. -/
def statementWanted : Finding :=
  .expected "a top-level statement: juliet, policy, rubric, cadence, create, extend, or halt"

/-- A token starts no statement if it is no keyword of one. -/
lemma ofToken?_eq_none {t : Token} (h : ∀ kind : StatementKind, t.isWord kind.word = false) :
    StatementKind.ofToken? t = none := by
  simp [StatementKind.ofToken?, h]

lemma endsStatement_eq_false_iff {t : Token} :
    endsStatement t = false ↔ t.kind ≠ .mark .semicolon ∧ StatementKind.ofToken? t = none := by
  simp [endsStatement]

/-- A round over a script leaves garbage behind. -/
lemma scriptItem_of_stray (hahead : s.ahead = garbage ++ semicolon :: rest)
    (hkind : semicolon.kind = .mark .semicolon)
    (hgarbage : ∀ t ∈ garbage, t.kind ≠ .mark .semicolon)
    (hwords : ∀ t ∈ garbage, ∀ kind : StatementKind, t.isWord kind.word = false) :
    scriptItem s = ((), s.leave (garbage ++ [semicolon]) rest statementWanted) := by
  have hstray : ∀ t ∈ garbage, endsStatement t = false := fun t ht =>
    endsStatement_eq_false_iff.2 ⟨hgarbage t ht, ofToken?_eq_none (hwords t ht)⟩
  have hcurrent : StatementKind.ofToken? s.current = none := by
    refine ofToken?_eq_none fun kind => ?_
    obtain hmem | heq := current_mem hahead
    · exact hwords _ hmem kind
    · rw [heq]
      exact Grammar.isWord_eq_false_of_kind (by simp [hkind]) _
  rw [scriptItem, get_bind_apply, hcurrent]
  exact reportCurrent_recover _ hahead hstray (by simp [endsStatement, hkind]) hkind

/-- The loop over a script goes on behind garbage. -/
lemma script_of_stray (hahead : s.ahead = garbage ++ semicolon :: rest)
    (hkind : semicolon.kind = .mark .semicolon)
    (hgarbage : ∀ t ∈ garbage, t.kind ≠ .mark .semicolon)
    (hwords : ∀ t ∈ garbage, ∀ kind : StatementKind, t.isWord kind.word = false) :
    script s = script (s.leave (garbage ++ [semicolon]) rest statementWanted) := by
  have hgo : s.atEnd = false := by simp [Checker.atEnd, hahead]
  have hlt := length_leave_lt hahead statementWanted
  rw [script_apply s, scriptItem_of_stray hahead hkind hgarbage hwords, hgo, if_neg (by simp),
    if_pos hlt]

/-! ## Blocks -/

/-- The loops over the items of a block: the loop, one item, what is asked for where no item
starts, and the states in which one does. -/
inductive Block : ∀ {α : Type}, (α → Check α) → (α → Check α) → String → (Checker → Prop) → Prop
  | juliet : Block (fun _ => julietItems) (fun _ => julietItem) "a key name in juliet block"
      fun s => s.current.kind = .identifier
  | rubric : Block rubricItems rubricItem "'criterion' or 'tiebreakers' inside rubric block"
      fun s => s.isAtWord "criterion" ∨ s.isAtWord "tiebreakers"
  | cadence : Block cadenceItems cadenceItem "cadence assignment or action (compare/keep)"
      fun s => s.isAtWord "compare" ∨ s.isAtWord "keep" ∨
        s.current.kind = .identifier ∧ (s.peek 1).kind = .mark .equals
  | attachments : Block attachmentItems attachment "attachment key in create with-block"
      fun s => s.current.kind = .identifier

namespace Block

variable {items item : α → Check α} {what : String} {starts : Checker → Prop}

/-- Every loop repeats its item. -/
lemma eq_untilClosed (h : Block items item what starts) : items = untilClosed item := by
  cases h <;> rfl

/-- Where no item starts, a round complains and recovers, and keeps what the loop carries. -/
lemma item_of_not_starts (h : Block items item what starts) (hstarts : ¬ starts s) (a : α) :
    item a s = (a, ((reportCurrent (.expected what) >>= fun _ => recoverInBlock) s).2) := by
  cases h with
  | juliet =>
    have hname : s.isAt [.identifier] = false := by simpa [Checker.isAt] using hstarts
    cases a
    simp only [julietItem, expectName, bind_apply, expect_apply, hname, Bool.false_eq_true,
      if_false]
    rfl
  | rubric =>
    obtain ⟨hcriterion, htiebreakers⟩ := not_or.1 hstarts
    rw [Bool.not_eq_true] at hcriterion htiebreakers
    simp only [rubricItem, bind_apply, acceptWord_apply, hcriterion, htiebreakers,
      Bool.false_eq_true, if_false]
    rfl
  | cadence =>
    obtain ⟨hcompare, hstarts⟩ := not_or.1 hstarts
    obtain ⟨hkeep, hassignment⟩ := not_or.1 hstarts
    rw [Bool.not_eq_true] at hcompare hkeep
    have hguard : (s.isAt [.identifier] && (s.peek 1).kind == .mark .equals) = false := by
      simpa [Checker.isAt] using hassignment
    simp only [cadenceItem, bind_apply, acceptWord_apply, hcompare, hkeep, ite_apply,
      Bool.false_eq_true, if_false]
    exact if_neg (ne_true_of_eq_false hguard)
  | attachments =>
    have hname : s.isAt [.identifier] = false := by simpa [Checker.isAt] using hstarts
    simp only [attachment, expectName, bind_apply, expect_apply, hname, Bool.false_eq_true,
      if_false]
    rfl

/-- A round over a block leaves garbage behind. -/
lemma item_of_stray (h : Block items item what starts)
    (hahead : s.ahead = garbage ++ semicolon :: rest) (hkind : semicolon.kind = .mark .semicolon)
    (hgarbage : ∀ t ∈ garbage, t.kind ≠ .mark .semicolon)
    (hopen : ∀ t ∈ garbage, t.kind ≠ .mark .closeBrace) (hstarts : ¬ starts s) (a : α) :
    item a s = (a, s.leave (garbage ++ [semicolon]) rest (.expected what)) := by
  have hstray : ∀ t ∈ garbage, endsItem t = false := by
    intro t ht
    simp [endsItem, hgarbage t ht, hopen t ht]
  rw [h.item_of_not_starts hstarts, recoverInBlock,
    reportCurrent_recover _ hahead hstray (by simp [endsItem, hkind]) hkind]

/-- The loop over a block goes on behind garbage. -/
lemma items_of_stray (h : Block items item what starts)
    (hahead : s.ahead = garbage ++ semicolon :: rest) (hkind : semicolon.kind = .mark .semicolon)
    (hgarbage : ∀ t ∈ garbage, t.kind ≠ .mark .semicolon)
    (hopen : ∀ t ∈ garbage, t.kind ≠ .mark .closeBrace) (hstarts : ¬ starts s) (a : α) :
    items a s = items a (s.leave (garbage ++ [semicolon]) rest (.expected what)) := by
  have hgo : (s.isAt [.mark .closeBrace] || s.atEnd) = false := by
    have hcurrent : s.current.kind ≠ .mark .closeBrace := by
      obtain hmem | heq := current_mem hahead
      · exact hopen _ hmem
      · simp [heq, hkind]
    simp [Checker.isAt, Checker.atEnd, hahead, hcurrent]
  have hlt := length_leave_lt hahead (.expected what)
  rw [h.eq_untilClosed, untilClosed_apply item a s,
    h.item_of_stray hahead hkind hgarbage hopen hstarts a, hgo, if_neg (by simp), if_pos hlt]

end Block

/-! ## The main result -/

/-- **Garbage costs one report and nothing else.** Let `garbage`, which has no semicolon and may be
empty, stand in front of a semicolon.

* If no token of it is a keyword of a statement, a round over the script makes one report, on the
  first of these tokens, and passes them all; tables and `juliet` flag stay, and the loop goes on
  from there.
* If it has no closing brace and starts no item, a round over a block does the same, and what the
  loop over the block carries stays too: criteria and tiebreakers, or the keys seen.

**Proof sketch.** The complaint is made on the token at hand, and the recovery passes what its test
rejects and then the semicolon. -/
theorem garbage_isolated (hahead : s.ahead = garbage ++ semicolon :: rest)
    (hkind : semicolon.kind = .mark .semicolon)
    (hgarbage : ∀ t ∈ garbage, t.kind ≠ .mark .semicolon) :
    let behind complaint := s.leave (garbage ++ [semicolon]) rest complaint
    ((∀ t ∈ garbage, ∀ kind : StatementKind, t.isWord kind.word = false) →
        scriptItem s = ((), behind statementWanted) ∧ script s = script (behind statementWanted)) ∧
      ∀ {α : Type} {items item : α → Check α} {what : String} {starts : Checker → Prop},
        Block items item what starts →
        (∀ t ∈ garbage, t.kind ≠ .mark .closeBrace) → ¬ starts s →
        ∀ a, item a s = (a, behind (.expected what)) ∧
          items a s = items a (behind (.expected what)) := by
  refine ⟨fun hwords => ⟨?_, ?_⟩, fun h hopen hstarts a => ⟨?_, ?_⟩⟩
  · exact scriptItem_of_stray hahead hkind hgarbage hwords
  · exact script_of_stray hahead hkind hgarbage hwords
  · exact h.item_of_stray hahead hkind hgarbage hopen hstarts a
  · exact h.items_of_stray hahead hkind hgarbage hopen hstarts a

/-- `= x;` starts neither a statement nor an item of a rubric. -/
theorem garbage_isolated_assignment :
    let equals : Token := ⟨.mark .equals, "=", ⟨⟨0, 0⟩, ⟨0, 1⟩⟩⟩
    let name : Token := ⟨.identifier, "x", ⟨⟨0, 2⟩, ⟨0, 3⟩⟩⟩
    let semicolon : Token := ⟨.mark .semicolon, ";", ⟨⟨0, 3⟩, ⟨0, 4⟩⟩⟩
    let s : Checker := .start [equals, name, semicolon] (.eofAt ⟨0, 4⟩) []
    scriptItem s = ((), s.leave [equals, name, semicolon] [] statementWanted) ∧
      rubricItem ⟨["a"], []⟩ s = (⟨["a"], []⟩, s.leave [equals, name, semicolon] []
        (.expected "'criterion' or 'tiebreakers' inside rubric block")) := by
  intro equals name semicolon s
  have hahead : s.ahead = [equals, name] ++ semicolon :: [] := rfl
  have h := garbage_isolated hahead rfl (by decide)
  have hwords : ∀ t ∈ [equals, name], ∀ kind : StatementKind, t.isWord kind.word = false := by
    intro t ht kind
    obtain rfl | rfl : t = equals ∨ t = name := by simpa using ht
    · cases kind <;> rfl
    · cases kind <;> rfl
  exact ⟨(h.1 hwords).1, (h.2 .rubric (by decide) (by decide) ⟨["a"], []⟩).1⟩

/-- **Each of many stretches in a row** costs one report, on its first token, and nothing else.

**Proof sketch.** Induction on the stretches: the loop goes on behind the first. -/
theorem script_of_stretches (stretches : List (List Token × Token))
    (hahead : s.ahead = (stretches.flatMap fun g => g.1 ++ [g.2]) ++ rest)
    (hstretches : ∀ g ∈ stretches, g.2.kind = .mark .semicolon ∧
      ∀ t ∈ g.1, t.kind ≠ .mark .semicolon ∧ ∀ kind : StatementKind, t.isWord kind.word = false) :
    script s = script { s with
      past := (stretches.flatMap fun g => g.1 ++ [g.2]).reverse ++ s.past
      ahead := rest
      reports := (stretches.map fun g => ⟨statementWanted, (g.1.headD g.2).range⟩).reverse ++
        s.reports } := by
  induction stretches generalizing s with
  | nil =>
    have hrest : rest = s.ahead := by simpa using hahead.symm
    rw [hrest]
    rfl
  | cons g gs ih =>
    obtain ⟨⟨hkind, hg⟩, hgs⟩ := List.forall_mem_cons.1 hstretches
    have hfirst : s.ahead = g.1 ++ g.2 :: ((gs.flatMap fun g => g.1 ++ [g.2]) ++ rest) := by
      simpa using hahead
    rw [script_of_stray hfirst hkind (fun t ht => (hg t ht).1) fun t ht => (hg t ht).2,
      ih rfl hgs]
    simp [Checker.leave, current_eq hfirst]

end Check

end WorkflowLint
