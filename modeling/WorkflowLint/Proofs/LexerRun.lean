import WorkflowLint.Lexer
import WorkflowLint.Proofs.Offset

/-!
# A lexer under any use

A lexer that is driven step by step may be told anything anywhere: to read a name where there is
none, to read a string at the end of the script, to read the whole script twice. Whatever it is
told, it passes some of what lies ahead, counts the lines and columns of what it has passed, and
adds to what it has produced. That is all a move can do, so whatever holds at the start of a script
holds behind every run.

## Main definitions

* `WorkflowLint.Lexer.run` — some moves, one after the other.
* `WorkflowLint.Lexer.Goes` — what one state of a lexer may become.
* `WorkflowLint.Lexer.StandsIn` — a lexer stands at an offset of a script and knows where it is.
* `WorkflowLint.Lexer.Reads` — one token of a kind has been read.
* `WorkflowLint.Lexer.Alike` — two lexers that show the same.

## Main results

* `WorkflowLint.Lexer.goes_apply`, `WorkflowLint.Lexer.goes_run` — moves and runs.
* `WorkflowLint.Lexer.standsIn_run` — where a lexer stands behind a run.
* `WorkflowLint.Lexer.reads_of_kind?` — a reader produces one token, of what it has passed.
* `WorkflowLint.Lexer.exists_run_finish` — reading a whole script is a run of smaller moves.
* `WorkflowLint.Lexer.run_exact` — all of this for a script.
-/

set_option autoImplicit false

namespace WorkflowLint

namespace Lexer

variable {lx lx' lx'' : Lexer} {script : String}

/-- The lexer behind some moves, one after the other. -/
def run (lx : Lexer) (moves : List Move) : Lexer := moves.foldl apply lx

@[simp] lemma run_nil (lx : Lexer) : lx.run [] = lx := rfl

@[simp] lemma run_cons (lx : Lexer) (m : Move) (moves : List Move) :
    lx.run (m :: moves) = (lx.apply m).run moves := rfl

@[simp] lemma run_append (lx : Lexer) (moves more : List Move) :
    lx.run (moves ++ more) = (lx.run moves).run more :=
  List.foldl_append

/-! ## What a move can do -/

/-- The lexer `lx` has become `lx'`: it has passed some of what lay ahead, counting lines and
columns, and it has produced some more. -/
structure Goes (lx lx' : Lexer) : Prop where
  passes : ∃ passed, lx.ahead = passed ++ lx'.ahead ∧ lx'.offset = lx.offset + passed.length ∧
    lx'.position = lx.position.after passed
  tokens : lx.tokens <+: lx'.tokens
  diagnostics : lx.diagnostics <+: lx'.diagnostics

namespace Goes

lemma refl (lx : Lexer) : lx.Goes lx := ⟨⟨[], rfl, rfl, rfl⟩, List.prefix_rfl, List.prefix_rfl⟩

lemma trans (h : lx.Goes lx') (h' : lx'.Goes lx'') : lx.Goes lx'' := by
  obtain ⟨passed, hahead, hoffset, hposition⟩ := h.passes
  obtain ⟨more, hahead', hoffset', hposition'⟩ := h'.passes
  refine ⟨⟨passed ++ more, ?_, ?_, ?_⟩, h.tokens.trans h'.tokens,
    h.diagnostics.trans h'.diagnostics⟩
  · rw [hahead, hahead', List.append_assoc]
  · rw [hoffset', hoffset, List.length_append, Nat.add_assoc]
  · rw [hposition', hposition, Position.after_append]

lemma offset_le (h : lx.Goes lx') : lx.offset ≤ lx'.offset := by
  obtain ⟨passed, -, hoffset, -⟩ := h.passes
  omega

end Goes

lemma goes_advance (lx : Lexer) : lx.Goes lx.advance := by
  unfold advance
  split
  · exact .refl lx
  · rename_i c cs hahead
    exact ⟨⟨[c], hahead, rfl, rfl⟩, List.prefix_rfl, List.prefix_rfl⟩

/-- Lexemes may be passed if their characters lie ahead. -/
lemma goes_consume {ls : List Lexeme} (h : Lexeme.textOf ls <+: lx.ahead) :
    lx.Goes (lx.consume ls) := by
  obtain ⟨rest, hrest⟩ := h
  refine ⟨⟨Lexeme.textOf ls, ?_, rfl, rfl⟩, List.prefix_append _ _, List.prefix_append _ _⟩
  simp only [consume, ← hrest, List.drop_left]

lemma goes_consume_single {l : Lexeme} (h : l.text <+: lx.ahead) : lx.Goes (lx.consume [l]) :=
  goes_consume (by simpa [Lexeme.textOf] using h)

lemma goes_finish (lx : Lexer) : lx.Goes lx.finish := by
  have hconsume : lx.Goes (lx.consume (Lexeme.decompose lx.ahead)) :=
    goes_consume (by rw [Lexeme.textOf_decompose])
  exact hconsume.trans ⟨⟨[], rfl, rfl, rfl⟩, List.prefix_append _ _, List.prefix_rfl⟩

/-- **Every move only goes on**, whatever lies ahead: each reader takes the start of it. -/
lemma goes_apply (lx : Lexer) (m : Move) : lx.Goes (lx.apply m) := by
  cases m with
  | advance => exact goes_advance lx
  | skipTrivia => exact goes_consume_single (Lexeme.leadingTrivia_isPrefix false _)
  | readIdentifier => exact goes_consume_single (Lexeme.text_scanIdentifier_isPrefix _)
  | readNumber => exact goes_consume_single (List.takeWhile_prefix _)
  | readString => exact goes_consume_single (Lexeme.text_scanString_isPrefix _)
  | readBlockString => exact goes_consume_single (Lexeme.text_scanBlockString_isPrefix _)
  | finish => exact goes_finish lx
  | error start message => exact ⟨⟨[], rfl, rfl, rfl⟩, List.prefix_rfl, List.prefix_append _ _⟩
  | addToken kind text start => exact ⟨⟨[], rfl, rfl, rfl⟩, List.prefix_append _ _, List.prefix_rfl⟩

/-- **Every run only goes on.** -/
lemma goes_run (lx : Lexer) (moves : List Move) : lx.Goes (lx.run moves) := by
  induction moves generalizing lx with
  | nil => exact .refl lx
  | cons m moves ih => exact (goes_apply lx m).trans (ih _)

/-! ## Where a lexer stands -/

/-- A lexer stands at an offset of the script, with the rest of the script ahead, and its place is
that of the offset: the line is the number of line feeds before the offset, and the column the
number of UTF-16 code units behind the last of them. -/
structure StandsIn (script : String) (lx : Lexer) : Prop where
  offset_le : lx.offset ≤ script.toList.length
  ahead_eq : lx.ahead = script.toList.drop lx.offset
  position_eq : lx.position = Position.ofOffset script.toList lx.offset

/-- What comes from the start of a script stands in it. -/
lemma Goes.standsIn (h : (ofText script).Goes lx) : lx.StandsIn script := by
  obtain ⟨passed, hahead, hoffset, hposition⟩ := h.passes
  have htext : script.toList = passed ++ lx.ahead := hahead
  have hlength : lx.offset = passed.length := hoffset.trans (Nat.zero_add _)
  have htake : script.toList.take lx.offset = passed := by
    rw [htext, hlength, List.take_left]
  refine ⟨?_, ?_, ?_⟩
  · rw [htext, hlength, List.length_append]
    omega
  · rw [htext, hlength, List.drop_left]
  · rw [← Position.after_eq_ofOffset, htake]
    exact hposition

/-- **Behind every run a lexer knows where it stands.** -/
lemma standsIn_run (script : String) (moves : List Move) :
    ((ofText script).run moves).StandsIn script :=
  (goes_run _ moves).standsIn

namespace StandsIn

variable (h : lx.StandsIn script)
include h

/-- The `n`-th character ahead is counted from the offset. -/
lemma peek?_eq (n : Nat) : lx.peek? n = script.toList[lx.offset + n]? := by
  rw [peek?, h.ahead_eq, List.getElem?_drop]

lemma current?_eq : lx.current? = script.toList[lx.offset]? := by
  rw [current?, List.head?_eq_getElem?, h.ahead_eq, List.getElem?_drop, Nat.add_zero]

lemma atEnd_iff : lx.atEnd = true ↔ lx.offset = script.toList.length := by
  have hle := h.offset_le
  rw [atEnd, h.ahead_eq, List.isEmpty_iff, List.drop_eq_nil_iff]
  omega

lemma atTripleQuote_iff :
    lx.atTripleQuote = true ↔ Lexeme.tripleQuote <+: script.toList.drop lx.offset := by
  rw [atTripleQuote, Lexeme.startsTriple_iff, h.ahead_eq]

end StandsIn

/-! ## Readers -/

/-- The kind of token that a move reads, if it reads one. -/
def Move.kind? : Move → Option TokenKind
  | .readIdentifier => some .identifier
  | .readNumber => some .number
  | .readString => some .string
  | .readBlockString => some .blockString
  | _ => none

/-- Between `lx` and `lx'` one token of the given kind has been read. It goes from where the lexer
was to where it is, and so does all that is wrong with it. -/
def Reads (kind : TokenKind) (lx lx' : Lexer) : Prop :=
  ∃ (value : String) (faults : List Finding),
    lx'.tokens = lx.tokens ++ [⟨kind, value, ⟨lx.position, lx'.position⟩⟩] ∧
    lx'.diagnostics = lx.diagnostics ++ faults.map fun f => ⟨f, ⟨lx.position, lx'.position⟩⟩

/-- Passing the text of a token is reading it. -/
lemma reads_consume (lx : Lexer) (kind : TokenKind) (text value : List Char)
    (faults : List Finding) : Reads kind lx (lx.consume [.token kind text value faults]) := by
  have hposition : (lx.consume [.token kind text value faults]).position =
      lx.position.after text := by
    simp [consume, Lexeme.textOf, Lexeme.text]
  refine ⟨.ofList value, faults, ?_, ?_⟩ <;> rw [hposition]
  · rfl
  · simp [consume, Lexeme.diagnosticsOf, Lexeme.diagnosticsFrom, Lexeme.findings, Lexeme.rangeFrom,
      Lexeme.text]

lemma exists_scanString (cs : List Char) :
    ∃ text value faults, Lexeme.scanString cs = .token .string text value faults := by
  unfold Lexeme.scanString
  split <;> exact ⟨_, _, _, rfl⟩

lemma exists_scanBlockString (cs : List Char) :
    ∃ text value faults, Lexeme.scanBlockString cs = .token .blockString text value faults := by
  unfold Lexeme.scanBlockString
  split <;> exact ⟨_, _, _, rfl⟩

/-- **A reader produces one token, of what it has passed**, wherever it is started. -/
lemma reads_of_kind? {m : Move} {kind : TokenKind} (h : m.kind? = some kind) (lx : Lexer) :
    Reads kind lx (lx.apply m) := by
  cases m with
  | readIdentifier =>
    obtain rfl := Option.some.inj h
    exact reads_consume ..
  | readNumber =>
    obtain rfl := Option.some.inj h
    exact reads_consume ..
  | readString =>
    obtain rfl := Option.some.inj h
    obtain ⟨text, value, faults, hscan⟩ := exists_scanString lx.ahead
    rw [apply, hscan]
    exact reads_consume ..
  | readBlockString =>
    obtain rfl := Option.some.inj h
    obtain ⟨text, value, faults, hscan⟩ := exists_scanBlockString lx.ahead
    rw [apply, hscan]
    exact reads_consume ..
  | _ => cases h

/-! ## Reading a whole script -/

/-- Two lexers that stand at one place and have produced the same tokens, and diagnostics that show
the same. -/
def Alike (lx lx' : Lexer) : Prop :=
  ∃ ds, lx' = { lx with diagnostics := ds } ∧
    ds.map Diagnostic.shown = lx.diagnostics.map Diagnostic.shown

namespace Alike

lemma refl (lx : Lexer) : lx.Alike lx := ⟨_, rfl, rfl⟩

lemma trans (h : lx.Alike lx') (h' : lx'.Alike lx'') : lx.Alike lx'' := by
  obtain ⟨ds, rfl, hds⟩ := h
  obtain ⟨ds', rfl, hds'⟩ := h'
  exact ⟨ds', rfl, hds'.trans hds⟩

/-- No move looks at what has been produced. -/
lemma apply (h : lx.Alike lx') (m : Move) : (lx.apply m).Alike (lx'.apply m) := by
  obtain ⟨ds, rfl, hds⟩ := h
  cases m with
  | advance =>
    simp only [Lexer.apply, advance]
    split <;> exact ⟨ds, rfl, hds⟩
  | addToken kind text start => exact ⟨ds, rfl, hds⟩
  | _ => exact ⟨_, rfl, by simp [Lexer.apply, consume, finish, error, hds]⟩

lemma run (h : lx.Alike lx') (moves : List Move) : (lx.run moves).Alike (lx'.run moves) := by
  induction moves generalizing lx lx' with
  | nil => exact h
  | cons m moves ih => exact ih (h.apply m)

end Alike

/-- Lexemes are passed one after the other. -/
lemma consume_cons (lx : Lexer) (l : Lexeme) (ls : List Lexeme) :
    lx.consume (l :: ls) = (lx.consume [l]).consume ls := by
  simp [consume, Lexeme.textOf, Lexeme.tokensOf, Lexeme.diagnosticsOf, Nat.add_assoc]

/-- Passing a lexeme of one character is passing that character. -/
lemma consume_character {c : Char} {cs : List Char} (h : lx.ahead = c :: cs) {l : Lexeme}
    (hl : l.text = [c]) : lx.consume [l] =
      { lx.advance with
        tokens := lx.tokens ++ (l.tokenFrom lx.position).toList
        diagnostics := lx.diagnostics ++ l.diagnosticsFrom lx.position } := by
  simp [consume, advance, h, Lexeme.textOf, Lexeme.tokensOf, Lexeme.diagnosticsOf, hl]

lemma advance_of_ahead {c : Char} {cs : List Char} (h : lx.ahead = c :: cs) : lx.advance =
    { lx with ahead := cs, offset := lx.offset + 1, position := lx.position.advance c } := by
  simp only [advance, h]

/-- **The first lexeme of what lies ahead is passed by one or two moves.**

**Proof sketch.** By cases on what it is. Marks and unexpected characters have no reader: the
character is passed, and then the token or the error is recorded from where it stands. -/
lemma exists_run_next {c : Char} {cs : List Char} (h : lx.ahead = c :: cs) :
    ∃ moves, .finish ∉ moves ∧ (lx.run moves).Alike (lx.consume [Lexeme.next c cs]) := by
  have hreader {m : Move} {l : Lexeme} (hm : .finish ≠ m) (hl : lx.apply m = lx.consume [l]) :
      ∃ moves, .finish ∉ moves ∧ (lx.run moves).Alike (lx.consume [l]) :=
    ⟨[m], by simpa using hm, by rw [run_cons, run_nil, hl]; exact .refl _⟩
  unfold Lexeme.next
  split
  · exact hreader (m := .skipTrivia) (by simp) (by rw [apply, h])
  split
  · exact hreader (m := .readIdentifier) (by simp) (by rw [apply, h])
  split
  · exact hreader (m := .readNumber) (by simp) (by rw [apply, h])
  split
  · split
    · exact hreader (m := .readBlockString) (by simp) (by rw [apply, h])
    · exact hreader (m := .readString) (by simp) (by rw [apply, h])
  split
  · rename_i m hm
    refine ⟨[.advance, .addToken (.mark m) (.ofList [c]) lx.position], by simp, ?_⟩
    rw [consume_character h rfl, run_cons, run_cons, run_nil, apply, apply, advance_of_ahead h]
    exact ⟨_, rfl, by simp [Lexeme.diagnosticsFrom, Lexeme.findings, addToken]⟩
  · refine ⟨[.advance, .error lx.position (Finding.unexpectedCharacter c).message], by simp, ?_⟩
    rw [consume_character h rfl, run_cons, run_cons, run_nil, apply, apply, advance_of_ahead h]
    refine ⟨lx.diagnostics ++ Lexeme.diagnosticsFrom lx.position (.unexpected c), ?_, ?_⟩
    · simp [error, Lexeme.tokenFrom]
    · -- the two errors differ in their cause, but not in what they say
      rw [error, List.map_append, List.map_append]
      rfl

/-- The lexemes of what lies ahead are passed by a run of smaller moves. -/
lemma exists_run_consume (lx : Lexer) :
    ∃ moves, .finish ∉ moves ∧
      (lx.run moves).Alike (lx.consume (Lexeme.decompose lx.ahead)) := by
  generalize hcs : lx.ahead = cs
  fun_induction Lexeme.decompose cs generalizing lx with
  | case1 =>
    refine ⟨[], List.not_mem_nil, _, ?_, rfl⟩
    simp [consume, Lexeme.textOf, Lexeme.tokensOf, Lexeme.diagnosticsOf]
  | case2 c cs l ih =>
    obtain ⟨moves, hmoves, halike⟩ := exists_run_next hcs
    have hahead : (lx.consume [l]).ahead = (c :: cs).drop l.text.length := by
      simp [consume, Lexeme.textOf, hcs]
    obtain ⟨more, hmore, halike'⟩ := ih (lx.consume [l]) hahead
    refine ⟨moves ++ more, by simp [hmoves, hmore], ?_⟩
    rw [run_append, consume_cons]
    exact (halike.run more).trans halike'

/-- **Reading a whole script is a run of smaller moves**, the last of which records the end. -/
lemma exists_run_finish (lx : Lexer) :
    ∃ moves, .finish ∉ moves ∧ (lx.run moves).Alike lx.finish := by
  obtain ⟨moves, hmoves, halike⟩ := exists_run_consume lx
  let ending : Move := .addToken .eof "" (lx.consume (Lexeme.decompose lx.ahead)).position
  refine ⟨moves ++ [ending], by simp [hmoves, ending], ?_⟩
  rw [run_append]
  exact halike.run [ending]

/-! ## The main result -/

/-- **The counters of a lexer are exact under any use.** Behind any moves over a script, whatever
they were:

* the lexer stands at an offset of the script, its line is the number of line feeds before the
  offset, and its column the number of UTF-16 code units behind the last of these;
* what can be looked at is what stands there in the script;
* one more move does not lead back, and only adds to the tokens and to the diagnostics;
* a reader, wherever it is started, adds one token, which starts where the lexer was and ends where
  it then is, and so do the diagnostics that it adds;
* reading the whole script shows what some smaller moves would have shown.

**Proof sketch.** A move passes some of what lies ahead and counts along (`goes_apply`), so a run
does. What has been passed is the script up to the offset, and counting along a text gives the place
of its length. -/
theorem run_exact (script : String) (moves : List Move) (m : Move) :
    let lx := (ofText script).run moves
    let lx' := lx.apply m
    lx.StandsIn script ∧
      (∀ n, lx.peek? n = script.toList[lx.offset + n]?) ∧
      lx.current? = script.toList[lx.offset]? ∧
      (lx.atEnd = true ↔ lx.offset = script.toList.length) ∧
      (lx.atTripleQuote = true ↔ Lexeme.tripleQuote <+: script.toList.drop lx.offset) ∧
      lx.offset ≤ lx'.offset ∧ lx.tokens <+: lx'.tokens ∧ lx.diagnostics <+: lx'.diagnostics ∧
      (∀ kind, m.kind? = some kind → Reads kind lx lx') ∧
      ∃ smaller, .finish ∉ smaller ∧ (lx.run smaller).Alike lx.finish := by
  intro lx lx'
  have hstands : lx.StandsIn script := standsIn_run script moves
  have hgoes : lx.Goes lx' := goes_apply lx m
  exact ⟨hstands, hstands.peek?_eq, hstands.current?_eq, hstands.atEnd_iff,
    hstands.atTripleQuote_iff, hgoes.offset_le, hgoes.tokens, hgoes.diagnostics,
    fun _ hkind => reads_of_kind? hkind lx, exists_run_finish lx⟩

/-- A string that is read where there is none: it takes the letter for its quote, and is open at the
end of the line, behind a character of two code units. -/
example : (ofText "a😀\nb").run [.readString, .readNumber] =
    ⟨['\n', 'b'], 2, ⟨0, 3⟩,
      [⟨.string, "😀", ⟨⟨0, 0⟩, ⟨0, 3⟩⟩⟩, ⟨.number, "", ⟨⟨0, 3⟩, ⟨0, 3⟩⟩⟩],
      [⟨.multilineString, ⟨⟨0, 0⟩, ⟨0, 3⟩⟩⟩, ⟨.unterminatedString, ⟨⟨0, 0⟩, ⟨0, 3⟩⟩⟩]⟩ := by
  decide

end Lexer

end WorkflowLint
