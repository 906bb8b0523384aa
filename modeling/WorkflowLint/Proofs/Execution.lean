import Mathlib.Logic.Basic
import WorkflowLint.Check.Script
import WorkflowLint.Proofs.Grammar

/-!
# How checks run

Equations for the building blocks of checks. They say what a block answers and which state it
leaves, so that later proofs execute a check by rewriting and never open a block.

The first part is about arbitrary states. The second is about a state that faces the token a block
asks for; there the state is written out, as `⟨past, ahead, eof, reports, definitions, julietSeen⟩`.

## Main results

* `WorkflowLint.Check.bind_apply` — a check runs its parts one after the other.
* `WorkflowLint.Check.expect_apply`, `WorkflowLint.Check.acceptWord_apply` — the two outcomes of
  asking for a token.
* `WorkflowLint.Check.iterate_apply` — one round of a loop.
* `WorkflowLint.Check.expect_leaf`, `WorkflowLint.Check.expectWord_word` — a token that is asked for
  is passed.
-/

set_option autoImplicit false

namespace WorkflowLint

open Grammar

/-! ## Arbitrary states -/

namespace Check

variable {α β : Type}

@[simp] lemma bind_apply (m : Check α) (f : α → Check β) (s : Checker) :
    (m >>= f) s = f (m s).1 (m s).2 := rfl

@[simp] lemma map_apply (f : α → β) (m : Check α) (s : Checker) :
    (f <$> m) s = (f (m s).1, (m s).2) := rfl

@[simp] lemma pure_apply (a : α) (s : Checker) : (pure a : Check α) s = (a, s) := rfl

/-- A check that looks at the state first goes on with that state. -/
@[simp high] lemma get_bind_apply (f : Checker → Check β) (s : Checker) :
    (get >>= f) s = f s s := rfl

@[simp] lemma modify_apply (f : Checker → Checker) (s : Checker) :
    (modify f : Check PUnit) s = (⟨⟩, f s) := rfl

@[simp] lemma discard_apply (m : Check α) (s : Checker) :
    (discard m : Check PUnit) s = (⟨⟩, (m s).2) := rfl

/-- A choice between two checks is made before either of them runs. -/
lemma ite_apply (c : Prop) [Decidable c] (m n : Check α) (s : Checker) :
    (if c then m else n) s = if c then m s else n s := by
  split <;> rfl

@[simp] lemma advance_apply (s : Checker) : advance s = (s.current, s.skip) := rfl

@[simp] lemma report_apply (f : Finding) (t : Token) (s : Checker) :
    report f t s = ((), { s with reports := ⟨f, t.range⟩ :: s.reports }) := rfl

@[simp] lemma reportPrevious_apply (f : Finding) (s : Checker) :
    reportPrevious f s = report f s.previous s := rfl

/-- Accepting passes the token at hand if it is of the given kind. -/
lemma accept_apply (kind : TokenKind) (s : Checker) :
    accept kind s = if s.isAt [kind] then (true, s.skip) else (false, s) := by
  simp only [accept, get_bind_apply, ite_apply]
  rfl

/-- Accepting passes the token at hand if it is the given word. -/
lemma acceptWord_apply (word : String) (s : Checker) :
    acceptWord word s = if s.isAtWord word then (true, s.skip) else (false, s) := by
  simp only [acceptWord, get_bind_apply, ite_apply]
  rfl

/-- Expecting passes a token of one of the given kinds, and complains about any other. -/
lemma expect_apply (kinds : List TokenKind) (complaint : Finding) (s : Checker) :
    expect kinds complaint s =
      if s.isAt kinds then (some s.current, s.skip)
      else (none, (report complaint s.current s).2) := by
  simp only [expect, get_bind_apply, ite_apply]
  rfl

/-- Expecting passes the given word, and complains about any other token. -/
lemma expectWord_apply (word : String) (complaint : Finding) (s : Checker) :
    expectWord word complaint s =
      if s.isAtWord word then (some s.current, s.skip)
      else (none, (report complaint s.current s).2) := by
  simp only [expectWord, get_bind_apply, ite_apply]
  rfl

/-- Entering a name reports it if its space holds it already, and stores it otherwise. -/
lemma define_apply (kind : SymbolKind) (name : Token) (s : Checker) :
    define kind name s =
      if s.isDefined kind name.text then report (.duplicateDefinition kind name.text) name s
      else ((), { s with definitions := ⟨kind, name⟩ :: s.definitions }) := by
  simp only [define, get_bind_apply, ite_apply]
  rfl

/-- Resolving a reference reports it if its space does not hold it. -/
lemma resolve_apply (kind : SymbolKind) (site : ReferenceSite) (reference : Token) (s : Checker) :
    resolve kind site reference s =
      if s.isDefined kind reference.text then ((), s)
      else report (.unresolved kind reference.text site) reference s := by
  simp only [resolve, get_bind_apply, ite_apply]
  cases s.isDefined kind reference.text <;> rfl

/-- One round of a loop. -/
lemma iterate_apply (step : α → Check (α × Bool)) (a : α) (s : Checker) :
    iterate step a s =
      if (step a s).1.2 ∧ (step a s).2.ahead.length < s.ahead.length then
        iterate step (step a s).1.1 (step a s).2
      else ((step a s).1.1, (step a s).2) := by
  rw [iterate]

/-- One round of the loop over the items of a block. -/
lemma untilClosed_apply (item : α → Check α) (a : α) (s : Checker) :
    untilClosed item a s =
      if s.isAt [.mark .closeBrace] || s.atEnd then (a, s)
      else if (item a s).2.ahead.length < s.ahead.length then
        untilClosed item (item a s).1 (item a s).2
      else item a s := by
  rw [untilClosed, iterate_apply]
  simp only [get_bind_apply, ite_apply]
  by_cases h : (s.isAt [.mark .closeBrace] || s.atEnd) = true
  · simp [h]
  · simp only [h, true_and, Bool.false_eq_true, if_false, bind_apply, pure_apply]
    rfl

/-- One round of the loop over a list with commas. -/
lemma separated_apply (item : α → Check α) (a : α) (s : Checker) :
    separated item a s =
      if (item a s).2.isAt [.mark .comma] then
        if (item a s).2.skip.ahead.length < s.ahead.length then
          separated item (item a s).1 (item a s).2.skip
        else ((item a s).1, (item a s).2.skip)
      else item a s := by
  rw [separated, iterate_apply]
  by_cases h : (item a s).2.isAt [.mark .comma] = true
  · simp [accept_apply, h]
  · simp only [bind_apply, accept_apply, h, pure_apply, Bool.false_eq_true, if_false, false_and]
    rfl

/-- A bracketed list is empty, or has items with commas in between. -/
lemma listed_apply (item : α → Check α) (a : α) (s : Checker) :
    listed item a s =
      if s.isAt [.mark .closeBracket] then (a, s) else separated item a s := by
  simp only [listed, get_bind_apply, ite_apply]
  rfl

/-- One round of the loop over the statements of a script. -/
lemma script_apply (s : Checker) :
    script s =
      if s.atEnd then ((), s)
      else if (scriptItem s).2.ahead.length < s.ahead.length then script (scriptItem s).2
      else ((), (scriptItem s).2) := by
  rw [script, iterate_apply]
  simp only [get_bind_apply, ite_apply]
  by_cases h : s.atEnd = true
  · simp [h]
  · simp [h]

end Check

/-! ## Leaves and words -/

namespace Grammar

/-- A leaf of one kind is of that kind. -/
@[simp] lemma Leaf.kind_eq {kind : TokenKind} (l : Leaf [kind]) : l.token.kind = kind :=
  List.mem_singleton.1 l.kind_mem

/-- The kind of a leaf is among its kinds, however these are written. -/
lemma Leaf.kind_mem_of_eq {kinds kinds' : List TokenKind} (l : Leaf kinds) (h : kinds = kinds') :
    l.token.kind ∈ kinds' := by
  subst h
  exact l.kind_mem

@[simp] lemma Word.kind_eq {word : String} (w : Word word) : w.token.kind = .identifier := by
  have h := w.isWord
  simp only [Token.isWord, Bool.and_eq_true, beq_iff_eq] at h
  exact h.1

@[simp] lemma Word.text_eq {word : String} (w : Word word) : w.token.text = word := by
  have h := w.isWord
  simp only [Token.isWord, Bool.and_eq_true, beq_iff_eq] at h
  exact h.2

/-- A token that is no identifier is no word. -/
lemma isWord_eq_false_of_kind {t : Token} (h : t.kind ≠ .identifier) (word : String) :
    t.isWord word = false := by
  simp [Token.isWord, h]

end Grammar

/-! ## States that face a token -/

section Facing

variable {past ahead : List Token} {eof : Token} {reports : List Diagnostic}
  {definitions : List Definition} {seen : Bool}

namespace Checker

@[simp] lemma current_cons (t : Token) :
    current ⟨past, t :: ahead, eof, reports, definitions, seen⟩ = t := by
  simp [current]

@[simp] lemma previous_cons (t : Token) :
    previous ⟨t :: past, ahead, eof, reports, definitions, seen⟩ = t := by
  simp [previous]

@[simp] lemma skip_cons (t : Token) :
    skip ⟨past, t :: ahead, eof, reports, definitions, seen⟩ =
      ⟨t :: past, ahead, eof, reports, definitions, seen⟩ := by
  simp [skip]

@[simp] lemma atEnd_cons (t : Token) :
    atEnd ⟨past, t :: ahead, eof, reports, definitions, seen⟩ = false := by
  simp [atEnd]

@[simp] lemma isAt_cons (t : Token) (kinds : List TokenKind) :
    isAt ⟨past, t :: ahead, eof, reports, definitions, seen⟩ kinds = kinds.contains t.kind := by
  simp [isAt]

@[simp] lemma isAtWord_cons (t : Token) (word : String) :
    isAtWord ⟨past, t :: ahead, eof, reports, definitions, seen⟩ word = t.isWord word := by
  simp [isAtWord]

end Checker

namespace Check

/-- A token of an expected kind is passed. -/
lemma expect_of_mem {t : Token} {kinds : List TokenKind} (h : t.kind ∈ kinds) (f : Finding) :
    expect kinds f ⟨past, t :: ahead, eof, reports, definitions, seen⟩ =
      (some t, ⟨t :: past, ahead, eof, reports, definitions, seen⟩) := by
  simp [expect_apply, h]

/-- A leaf is passed where its kinds are expected. -/
@[simp] lemma expect_leaf {kinds : List TokenKind} (l : Leaf kinds) (f : Finding) :
    expect kinds f ⟨past, l.token :: ahead, eof, reports, definitions, seen⟩ =
      (some l.token, ⟨l.token :: past, ahead, eof, reports, definitions, seen⟩) :=
  expect_of_mem l.kind_mem f

/-- A word is passed where it is expected. -/
@[simp] lemma expectWord_word {word : String} (w : Word word) (f : Finding) :
    expectWord word f ⟨past, w.token :: ahead, eof, reports, definitions, seen⟩ =
      (some w.token, ⟨w.token :: past, ahead, eof, reports, definitions, seen⟩) := by
  simp [expectWord_apply, w.isWord]

/-- A word is passed where it is accepted. -/
@[simp] lemma acceptWord_word {word : String} (w : Word word) :
    acceptWord word ⟨past, w.token :: ahead, eof, reports, definitions, seen⟩ =
      (true, ⟨w.token :: past, ahead, eof, reports, definitions, seen⟩) := by
  simp [acceptWord_apply, w.isWord]

/-- A token that is not the accepted word stays. -/
lemma acceptWord_of_isWord_eq_false {t : Token} {word : String} (h : t.isWord word = false) :
    acceptWord word ⟨past, t :: ahead, eof, reports, definitions, seen⟩ =
      (false, ⟨past, t :: ahead, eof, reports, definitions, seen⟩) := by
  simp [acceptWord_apply, h]

/-- A word stays where another one is accepted. -/
@[simp] lemma acceptWord_word_of_ne {word word' : String} (w : Word word) (h : word ≠ word') :
    acceptWord word' ⟨past, w.token :: ahead, eof, reports, definitions, seen⟩ =
      (false, ⟨past, w.token :: ahead, eof, reports, definitions, seen⟩) := by
  apply acceptWord_of_isWord_eq_false
  simp [Token.isWord, h]

/-- A mark stays where a word is accepted. -/
@[simp] lemma acceptWord_punct {m : Mark} (l : Punct m) (word : String) :
    acceptWord word ⟨past, l.token :: ahead, eof, reports, definitions, seen⟩ =
      (false, ⟨past, l.token :: ahead, eof, reports, definitions, seen⟩) := by
  apply acceptWord_of_isWord_eq_false
  apply isWord_eq_false_of_kind
  simp

end Check

end Facing

end WorkflowLint
