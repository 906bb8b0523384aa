import Mathlib.Data.List.TakeWhile
import WorkflowLint.Proofs.Execution
import WorkflowLint.Proofs.Reference

/-!
# Knowledge, complaints and loops

What the simulation of abstract scripts by checks rests on: the tests on numerals and blank text
agree, the definitions of a check amount to a scope, names and references are reported as the scope
says, and a loop over spelled items does what its body does, item by item.

## Main definitions

* `WorkflowLint.scopeOf`, `WorkflowLint.Checker.scope` — what a check knows, as a scope.
* `WorkflowLint.enterName`, `WorkflowLint.Grammar.Statement.enter` — the definitions behind a name
  and behind a statement.

## Main results

* `WorkflowLint.isPositive_iff`, `WorkflowLint.allBlank_iff` — numerals and blank text.
* `WorkflowLint.scopeOf_statement` — entering definitions enters names into the scope.
* `WorkflowLint.Check.untilClosed_run`, `WorkflowLint.Check.separated_run`,
  `WorkflowLint.Check.listed_run` — loops over spelled items.
-/

set_option autoImplicit false

namespace WorkflowLint

open Grammar

/-! ## Numerals and blank text -/

/-- The value of a decimal digit is zero for the digit zero only. -/
lemma digit_eq_zero_iff {c : Char} (h : c.isDigit = true) : c.toNat - '0'.toNat = 0 ↔ c = '0' := by
  constructor
  · intro h0
    have hr : '0'.toNat ≤ c.toNat ∧ c.toNat ≤ '9'.toNat := by
      simpa [Char.isDigit, UInt32.le_iff_toNat_le] using h
    have hc : c.toNat = '0'.toNat := by omega
    exact Char.toNat_inj.1 hc
  · rintro rfl
    rfl

/-- Reading digits from left to right gives zero if there is nothing but zeros. -/
lemma foldl_digits_eq_zero_iff (cs : List Char) (h : ∀ c ∈ cs, c.isDigit) :
    ∀ n : Nat, cs.foldl (fun n c => 10 * n + (c.toNat - '0'.toNat)) n = 0 ↔
      n = 0 ∧ ∀ c ∈ cs, c = '0' := by
  induction cs with
  | nil => simp
  | cons c cs ih =>
    intro n
    have hc := digit_eq_zero_iff (h c (by simp))
    rw [List.foldl_cons, ih (fun x hx => h x (by simp [hx])), List.forall_mem_cons, ← hc]
    constructor
    · rintro ⟨h1, h2⟩
      exact ⟨by omega, by omega, h2⟩
    · rintro ⟨h1, h2, h3⟩
      exact ⟨by omega, h3⟩

/-- A numeral is positive unless its value is zero. -/
lemma isPositive_iff (numeral : String) :
    Check.isPositive numeral = true ↔ ¬ decimal? numeral = some 0 := by
  have hz : Check.isPositive numeral = false ↔ ∀ c ∈ numeral.toList, c = '0' := by
    simp [Check.isPositive]
  rw [← Bool.not_eq_false, hz, decimal?]
  split
  · rename_i hd
    simp only [Option.some.injEq, foldl_digits_eq_zero_iff _ (List.all_eq_true.1 hd), true_and]
  · rename_i hd
    simp only [reduceCtorEq, not_false_eq_true, iff_true]
    intro h0
    apply hd
    rw [List.all_eq_true]
    intro c hc
    rw [h0 c hc]
    rfl

/-- A text is blank if nothing is left of it between its blank ends. -/
lemma allBlank_iff (s : String) : Text.allBlank s = true ↔ strip s = [] := by
  rw [Text.allBlank, strip, List.all_eq_true, List.reverse_eq_nil_iff, List.dropWhile_eq_nil_iff,
    ← List.dropWhile_eq_nil_iff]
  constructor
  · intro h
    simp [h]
  · intro h
    by_contra hne
    have hhead := List.head_dropWhile_not Text.isBlank hne
    have hmem := h _ (List.mem_reverse.2 (List.head_mem hne))
    rw [hhead] at hmem
    exact Bool.false_ne_true hmem

/-- One complains under equivalent conditions alike. -/
lemma complain_congr {c c' : Prop} [Decidable c] [Decidable c'] (h : c ↔ c') (f : Finding)
    (t : Token) : complain c f t = complain c' f t := by
  simp only [complain, h]

/-! ## What a check knows -/

/-- What the definitions met so far and the flag for `juliet` blocks amount to. -/
def scopeOf (definitions : List Definition) (seen : Bool) : Scope where
  names kind := (definitions.reverse.filter fun d => d.kind == kind).map Definition.token
  julietSeen := seen

@[simp] lemma julietSeen_scopeOf (definitions : List Definition) (seen : Bool) :
    (scopeOf definitions seen).julietSeen = seen := rfl

/-- What a check knows. -/
def Checker.scope (s : Checker) : Scope := scopeOf s.definitions s.julietSeen

/-- A name is defined for a check if its scope defines it. -/
lemma Checker.isDefined_iff (s : Checker) (kind : SymbolKind) (name : String) :
    s.isDefined kind name = true ↔ s.scope.Defines kind name := by
  simp only [isDefined, List.any_eq_true, Bool.and_eq_true, beq_iff_eq, Scope.Defines, scope,
    scopeOf, List.mem_map, List.mem_filter, List.mem_reverse]
  constructor
  · rintro ⟨d, hd, hk, hn⟩
    exact ⟨d.token, ⟨d, ⟨hd, hk⟩, rfl⟩, hn⟩
  · rintro ⟨t, ⟨d, ⟨hd, hk⟩, rfl⟩, hn⟩
    exact ⟨d, hd, hk, hn⟩

@[simp] lemma julietSeen_define (Γ : Scope) (kind : SymbolKind) (name : Name) :
    (Γ.define kind name).julietSeen = Γ.julietSeen := by
  rw [Scope.define]
  split <;> rfl

/-- The definitions behind a name of the given kind. -/
def enterName (kind : SymbolKind) (name : Name) (definitions : List Definition) : List Definition :=
  if (scopeOf definitions false).Defines kind name.token.text then definitions
  else ⟨kind, name.token⟩ :: definitions

/-- Entering a name into the definitions enters it into the scope. -/
lemma scopeOf_enterName (kind : SymbolKind) (name : Name) (definitions : List Definition)
    (seen : Bool) :
    scopeOf (enterName kind name definitions) seen =
      (scopeOf definitions seen).define kind name := by
  have hd : (scopeOf definitions seen).Defines kind name.token.text ↔
      (scopeOf definitions false).Defines kind name.token.text := Iff.rfl
  by_cases h : (scopeOf definitions false).Defines kind name.token.text
  · rw [enterName, Scope.define, if_pos h, if_pos (hd.2 h)]
  · rw [enterName, Scope.define, if_neg h, if_neg (mt hd.1 h)]
    simp only [scopeOf, Scope.mk.injEq, and_true]
    funext k
    by_cases hk : k = kind
    · simp [hk]
    · simp [hk, Ne.symm hk]

/-- The definitions behind a statement. -/
def Grammar.Statement.enter (definitions : List Definition) : Statement → List Definition
  | .policy name _ => enterName .policy name definitions
  | .rubric name _ => enterName .rubric name definitions
  | .cadence name _ => enterName .cadence name definitions
  | .create name _ _ _ => enterName .artifact name definitions
  | _ => definitions

/-- The scope behind a statement is that of the definitions behind it. -/
lemma scopeOf_statement (definitions : List Definition) (seen : Bool) (st : Statement) :
    scopeOf (st.enter definitions) (st.scope (scopeOf definitions seen)).julietSeen =
      st.scope (scopeOf definitions seen) := by
  cases st with
  | juliet keyword settings => rfl
  | policy name body => simp [Statement.enter, Statement.scope, scopeOf_enterName]
  | rubric name items => simp [Statement.enter, Statement.scope, scopeOf_enterName]
  | cadence name items => simp [Statement.enter, Statement.scope, scopeOf_enterName]
  | create name origin uses as => simp [Statement.enter, Statement.scope, scopeOf_enterName]
  | extend artifact target text => rfl
  | halt message => rfl

/-! ## Names, references and numbers -/

section Run

variable {past ahead : List Token} {eof : Token} {reports : List Diagnostic}
  {definitions : List Definition} {seen : Bool}

namespace Check

/-- A finding that is reported under a condition, in front of `k`. -/
lemma when_report {β : Type} {c : Prop} [Decidable c] (f : Finding) (t : Token)
    (k : Unit → Check β) :
    (if c then report f t >>= k else k ()) ⟨past, ahead, eof, reports, definitions, seen⟩ =
      k () ⟨past, ahead, eof, (complain c f t).reverse ++ reports, definitions, seen⟩ := by
  by_cases h : c
  · simp [complain, h]
  · simp [complain, h]

/-- Entering a name reports its repetition and stores it otherwise. -/
@[simp] lemma define_name (kind : SymbolKind) (name : Name) :
    define kind name.token ⟨past, ahead, eof, reports, definitions, seen⟩ =
      ((), ⟨past, ahead, eof,
        ((scopeOf definitions seen).repetition kind name).reverse ++ reports,
        enterName kind name definitions, seen⟩) := by
  have hdef := Checker.isDefined_iff ⟨past, ahead, eof, reports, definitions, seen⟩ kind
    name.token.text
  have hd : (scopeOf definitions seen).Defines kind name.token.text ↔
      (scopeOf definitions false).Defines kind name.token.text := Iff.rfl
  rw [define_apply, Scope.repetition, complain, enterName]
  by_cases h : (scopeOf definitions seen).Defines kind name.token.text
  · rw [if_pos (hdef.2 h), if_pos h, if_pos (hd.1 h)]
    rfl
  · rw [if_neg (mt hdef.1 h), if_neg h, if_neg (mt hd.2 h)]
    rfl

/-- Resolving a name reports it if it dangles. -/
@[simp] lemma resolve_name (kind : SymbolKind) (site : ReferenceSite) (name : Name) :
    resolve kind site name.token ⟨past, ahead, eof, reports, definitions, seen⟩ =
      ((), ⟨past, ahead, eof,
        ((scopeOf definitions seen).dangling kind site name).reverse ++ reports,
        definitions, seen⟩) := by
  have hdef := Checker.isDefined_iff ⟨past, ahead, eof, reports, definitions, seen⟩ kind
    name.token.text
  rw [resolve_apply, Scope.dangling, complain]
  by_cases h : (scopeOf definitions seen).Defines kind name.token.text
  · rw [if_pos (hdef.2 h), if_neg (not_not.2 h)]
    rfl
  · rw [if_neg (mt hdef.1 h), if_pos h]
    rfl

/-- A number is reported if its value is zero. -/
@[simp] lemma requirePositive_some (f : Finding) (n : Token) :
    requirePositive f (some n) ⟨past, ahead, eof, reports, definitions, seen⟩ =
      ((), ⟨past, ahead, eof, (complain (decimal? n.text = some 0) f n).reverse ++ reports,
        definitions, seen⟩) := by
  have hp := isPositive_iff n.text
  by_cases h : decimal? n.text = some 0
  · have hn : isPositive n.text = false := by simpa [h] using hp
    simp [requirePositive, complain, h, hn]
  · have hn : isPositive n.text = true := hp.2 h
    simp [requirePositive, complain, h, hn]

/-! ## Loops over spelled items -/

/-- What does not depend on the running state is gathered item by item. -/
lemma gather_const {α β γ : Type} (step : β → α → β) (say : α → List γ) (b : β) (as : List α) :
    gather step (fun _ a => say a) b as = as.flatMap say := by
  induction as generalizing b with
  | nil => rfl
  | cons a as ih => simp [gather, ih]

/-- Two running states that are kept in step, and of which the same is said, gather the same. -/
lemma gather_congr {α β β' γ : Type} {step : β → α → β} {say : β → α → List γ}
    {step' : β' → α → β'} {say' : β' → α → List γ} (agree : β → β' → Prop)
    (agree_step : ∀ {b b'}, agree b b' → ∀ a, agree (step b a) (step' b' a))
    (say_eq : ∀ {b b'}, agree b b' → ∀ a, say b a = say' b' a) (as : List α) :
    ∀ {b b'}, agree b b' → gather step say b as = gather step' say' b' as := by
  induction as with
  | nil => intros; rfl
  | cons a as ih =>
    intro b b' h
    rw [gather, gather, say_eq h, ih (agree_step h a)]

/-- **A block of spelled items.** If in front of a spelled item the check of one item passes it,
says `say` about it and changes the running state by `step`, then the loop over a block does so for
all items, and stops in front of the closing brace.

**Proof sketch.** Induction on the spelling. An item starts with an identifier, so the loop goes
into it; it passes that identifier at least, so the loop goes on behind it. -/
lemma untilClosed_run {α β : Type} {item : β → Check β} {spells : α → List Token → Prop}
    {step : β → α → β} {say : β → α → List Diagnostic} {as : List α} {ts : List Token}
    (h : Sequence spells as ts)
    (item_run : ∀ {a ts}, spells a ts → ∀ b past rest reports,
      item b ⟨past, ts ++ rest, eof, reports, definitions, seen⟩ =
        (step b a, ⟨ts.reverse ++ past, rest, eof, (say b a).reverse ++ reports, definitions,
          seen⟩))
    (starts : ∀ {a ts}, spells a ts → ∃ t us, ts = t :: us ∧ t.kind = .identifier)
    (closing : Punct .closeBrace) (rest : List Token) :
    ∀ b past reports,
      untilClosed item b ⟨past, ts ++ closing.token :: rest, eof, reports, definitions, seen⟩ =
        (as.foldl step b, ⟨ts.reverse ++ past, closing.token :: rest, eof,
          (gather step say b as).reverse ++ reports, definitions, seen⟩) := by
  induction h with
  | nil =>
    intro b past reports
    rw [untilClosed_apply]
    simp [gather]
  | @cons a as ts us ha _ ih =>
    intro b past reports
    obtain ⟨t, ts', rfl, ht⟩ := starts ha
    have hrun := item_run ha b past (us ++ closing.token :: rest) reports
    rw [untilClosed_apply, List.append_assoc, hrun]
    have hopen : ¬ (Checker.isAt ⟨past, t :: ts' ++ (us ++ closing.token :: rest), eof, reports,
        definitions, seen⟩ [.mark .closeBrace] || Checker.atEnd ⟨past, t :: ts' ++
        (us ++ closing.token :: rest), eof, reports, definitions, seen⟩) = true := by
      simp [ht]
    have hlt : (us ++ closing.token :: rest).length <
        (t :: ts' ++ (us ++ closing.token :: rest)).length := by
      simp only [List.length_append, List.length_cons]
      omega
    rw [if_neg hopen, if_pos hlt, ih]
    simp [gather]

/-- **A list of spelled leaves with commas.** The same for leaves with commas in between, in front
of the closing bracket.

**Proof sketch.** Induction on the spelling: the loop goes on as long as a comma follows, and the
closing bracket is none. -/
lemma separated_run {β : Type} {kinds : List TokenKind} {item : β → Check β}
    {step : β → Leaf kinds → β} {say : β → Leaf kinds → List Diagnostic}
    (item_run : ∀ a b past rest reports,
      item b ⟨past, a.token :: rest, eof, reports, definitions, seen⟩ =
        (step b a, ⟨a.token :: past, rest, eof, (say b a).reverse ++ reports, definitions, seen⟩))
    {as : List (Leaf kinds)} {ts : List Token} (h : Commas as ts) (closing : Punct .closeBracket)
    (rest : List Token) :
    ∀ b past reports,
      separated item b ⟨past, ts ++ closing.token :: rest, eof, reports, definitions, seen⟩ =
        (as.foldl step b, ⟨ts.reverse ++ past, closing.token :: rest, eof,
          (gather step say b as).reverse ++ reports, definitions, seen⟩) := by
  induction h with
  | last a =>
    intro b past reports
    rw [List.singleton_append, separated_apply, item_run]
    simp [gather]
  | cons a comma _ ih =>
    intro b past reports
    rw [List.cons_append, List.cons_append, separated_apply, item_run]
    simp only [Checker.isAt_cons, Checker.skip_cons, Leaf.kind_eq, List.contains_cons,
      BEq.rfl, Bool.true_or, if_true, List.length_cons, ih]
    rw [if_pos (by omega)]
    simp [gather]

/-- **A bracketed list of spelled leaves**, from behind the opening bracket. -/
lemma listed_run {β : Type} {kinds : List TokenKind} {item : β → Check β}
    {step : β → Leaf kinds → β} {say : β → Leaf kinds → List Diagnostic}
    (kinds_ne : .mark .closeBracket ∉ kinds)
    (item_run : ∀ a b past rest reports,
      item b ⟨past, a.token :: rest, eof, reports, definitions, seen⟩ =
        (step b a, ⟨a.token :: past, rest, eof, (say b a).reverse ++ reports, definitions, seen⟩))
    {as : List (Leaf kinds)} {ts : List Token} (h : Commas as ts) (closing : Punct .closeBracket)
    (rest : List Token) (b : β) (past : List Token) (reports : List Diagnostic) :
    listed item b ⟨past, ts ++ closing.token :: rest, eof, reports, definitions, seen⟩ =
      (as.foldl step b, ⟨ts.reverse ++ past, closing.token :: rest, eof,
        (gather step say b as).reverse ++ reports, definitions, seen⟩) := by
  rw [listed_apply, separated_run item_run h]
  have hne : ∀ l : Leaf kinds, l.token.kind ≠ .mark .closeBracket := by
    intro l hl
    apply kinds_ne
    rw [← hl]
    exact l.kind_mem
  cases h with
  | last a => simp [hne a]
  | cons a comma h => simp [hne a]

end Check

end Run

end WorkflowLint
