import WorkflowLint.Proofs.Spacing

/-!
# Tokens are read back from their text

A token is written down as its text, with the quotes of its kind around it, and a blank behind it.
Reading what has been written gives the tokens again. This is true of the texts that a token of a
kind can have at all; and these are exactly the texts of the tokens that are read from a script in
which no lexeme is faulty.

## Main definitions

* `WorkflowLint.Lexeme.Writable` — the texts that a token of a kind can have.
* `WorkflowLint.Lexeme.written` — a text with the quotes of its kind.
* `WorkflowLint.writeTokens` — a script that consists of given tokens.

## Main results

* `WorkflowLint.Lexeme.Writable.segment` — what is written in front of a blank is a segment.
* `WorkflowLint.Lexeme.Segment.writable` — a segment without faults has a writable text.
* `WorkflowLint.tokenize_writeTokens` — reading undoes writing, and all that is read can be written.
-/

set_option autoImplicit false

namespace WorkflowLint

namespace Lexeme

/-! ## Texts that can be written -/

/-- `Writable kind value`: a token of the given kind can have the text `value`. -/
inductive Writable : TokenKind → List Char → Prop
  | identifier {c : Char} {cs : List Char} :
      c.isAlpha = true → (∀ d ∈ cs, isNamePart d = true) → Writable .identifier (c :: cs)
  | number {cs : List Char} :
      cs ≠ [] → (∀ d ∈ cs, d.isDigit = true) → Writable .number cs
  | string {body : List Char} : Quotable body → Writable .string body
  | blockString {body : List Char} :
      ¬ tripleQuote <:+: body → body.getLast? ≠ some '"' → Writable .blockString body
  | mark (m : Mark) : Writable (.mark m) [m.char]

/-- A text with the quotes of its kind. -/
def written : TokenKind → List Char → List Char
  | .string, value => '"' :: value ++ ['"']
  | .blockString, value => tripleQuote ++ value ++ tripleQuote
  | _, value => value

/-- A body is closed by the three quotes behind it if it has no three quotes in a row, nor a last
quote that would be the first of them. -/
lemma blockable_iff_getLast? {body : List Char} :
    Blockable body ↔ ¬ tripleQuote <:+: body ∧ body.getLast? ≠ some '"' := by
  rw [blockable_iff]
  constructor
  · intro h
    refine ⟨fun hinside => h (hinside.trans (List.prefix_append _ _).isInfix), fun hlast => h ?_⟩
    obtain ⟨front, rfl⟩ := List.getLast?_eq_some_iff.1 hlast
    exact ⟨front, [], by simp [tripleQuote]⟩
  · rintro ⟨hinside, hlast⟩ ⟨front, back, hbody⟩
    -- the three quotes end in the body, or with the first or the second of the two behind it
    rcases List.eq_nil_or_concat back with rfl | ⟨back, c, rfl⟩
    · refine hlast (List.getLast?_eq_some_iff.2 ⟨front, ?_⟩)
      have hcut : body ++ ['"', '"'] = (front ++ ['"']) ++ ['"', '"'] := by
        simpa [tripleQuote] using hbody.symm
      exact List.append_cancel_right hcut
    · rcases List.eq_nil_or_concat back with rfl | ⟨back, d, rfl⟩
      · refine hlast (List.getLast?_eq_some_iff.2 ⟨front ++ ['"'], ?_⟩)
        have hcut : (front ++ ['"', '"', '"']) ++ [c] = (body ++ ['"']) ++ ['"'] := by
          simpa [tripleQuote] using hbody
        have hfront : body ++ ['"'] = ((front ++ ['"']) ++ ['"']) ++ ['"'] := by
          simpa using (List.append_inj' hcut rfl).1.symm
        exact List.append_cancel_right hfront
      · refine hinside ⟨front, back, ?_⟩
        have hcut : (front ++ tripleQuote ++ back) ++ [d, c] = body ++ ['"', '"'] := by
          simpa using hbody
        exact (List.append_inj' hcut rfl).1

/-! ## Writing and segments -/

/-- A quoted literal in front of a blank does not start with three quotes in a row. -/
lemma not_tripleQuote_of_blank {body : List Char} (h : Quotable body) (rest : List Char) :
    ¬ tripleQuote <+: '"' :: body ++ '"' :: ' ' :: rest := by
  cases h with
  | nil => simp [tripleQuote]
  | plain hquote => simp [tripleQuote, Ne.symm hquote]
  | escape c => simp [tripleQuote]

/-- **What is written in front of a blank is a segment**: no character of the blank or behind it
belongs to it. -/
lemma Writable.segment {kind : TokenKind} {value : List Char} (h : Writable kind value)
    (rest : List Char) :
    Segment (.token kind (written kind value) value []) (' ' :: rest) := by
  cases h with
  | identifier hfirst hpart =>
    refine .identifier hfirst hpart fun d hd => ?_
    rw [← Option.some.inj hd]
    decide
  | number hne hdigit =>
    refine .number hne hdigit fun d hd => ?_
    rw [← Option.some.inj hd]
    decide
  | string hbody => exact .string hbody (not_tripleQuote_of_blank hbody rest)
  | blockString hinside hlast => exact .blockString _ (blockable_iff_getLast?.2 ⟨hinside, hlast⟩)
  | mark m => exact .mark m _

/-- **A segment without faults has a writable text.** -/
lemma Segment.writable {kind : TokenKind} {text value rest : List Char}
    (h : Segment (.token kind text value []) rest) : Writable kind value := by
  cases h with
  | identifier hfirst hpart _ => exact .identifier hfirst hpart
  | number hne hdigit _ => exact .number hne hdigit
  | blockString _ hbody =>
    obtain ⟨hinside, hlast⟩ := blockable_iff_getLast?.1 hbody
    exact .blockString hinside hlast
  | string hbody _ => exact .string hbody
  | mark m _ => exact .mark m

/-- The lexeme of a token that is written down. -/
def ofContent (t : TokenKind × String) : Lexeme :=
  .token t.1 (written t.1 t.2.toList) t.2.toList []

end Lexeme

/-! ## Scripts that consist of given tokens -/

/-- The script in which the tokens are written one after the other, each with a blank behind it. -/
def writeTokens (ts : List (TokenKind × String)) : String :=
  String.ofList (ts.flatMap fun t => Lexeme.written t.1 t.2.toList ++ [' '])

/-- The pieces of a script that consists of given tokens are these tokens, with blanks in
between. -/
lemma exists_cut_writeTokens {ts : List (TokenKind × String)}
    (h : ∀ t ∈ ts, Lexeme.Writable t.1 t.2.toList) :
    ∃ ls, Lexeme.Cut (writeTokens ts).toList ls ∧ Lexeme.solid ls = ts.map Lexeme.ofContent := by
  induction ts with
  | nil => exact ⟨[], .nil, rfl⟩
  | cons t ts ih =>
    obtain ⟨ht, hts⟩ := List.forall_mem_cons.1 h
    obtain ⟨ls, hls, hsolid⟩ := ih hts
    refine ⟨Lexeme.ofContent t :: .trivia [' '] :: ls, ?_, ?_⟩
    · have hblank : Lexeme.Cut (' ' :: (writeTokens ts).toList) (.trivia [' '] :: ls) :=
        .cons (.blank _ (by decide)) hls
      have htoken := Lexeme.Cut.cons (ht.segment (writeTokens ts).toList) hblank
      simpa [writeTokens, Lexeme.ofContent, Lexeme.text] using htoken
    · rw [List.map_cons, ← hsolid]
      rfl

/-- Reading undoes writing. -/
lemma tokenize_writeTokens_eq {ts : List (TokenKind × String)}
    (h : ∀ t ∈ ts, Lexeme.Writable t.1 t.2.toList) :
    (tokenize (writeTokens ts)).diagnostics = [] ∧
      (tokenize (writeTokens ts)).stream.map Token.content = ts ++ [(.eof, "")] := by
  obtain ⟨ls, hls, hsolid⟩ := exists_cut_writeTokens h
  obtain ⟨htokens, hdiagnostics⟩ := contents_tokenize hls
  have hcontent : (ts.map Lexeme.ofContent).filterMap Lexeme.content? = ts := by
    rw [List.filterMap_map]
    have hsome : Lexeme.content? ∘ Lexeme.ofContent = some := by
      funext t
      simp [Lexeme.ofContent, Lexeme.content?]
    rw [hsome, List.filterMap_some]
  refine ⟨?_, ?_⟩
  · rw [hdiagnostics]
    refine Lexeme.diagnosticsOf_eq_nil (fun l hl => ?_) _
    rw [hsolid] at hl
    obtain ⟨t, -, rfl⟩ := List.mem_map.1 hl
    rfl
  · rw [Tokenized.stream, List.map_append, htokens, Lexeme.map_content_tokensOf, hsolid, hcontent]
    rfl

/-- What is read from a script without lexical diagnostics can be written. -/
lemma writable_of_mem_tokens {script : String} (hclean : (tokenize script).diagnostics = [])
    {t : Token} (ht : t ∈ (tokenize script).tokens) : Lexeme.Writable t.kind t.text.toList := by
  obtain ⟨ls, hls⟩ := Lexeme.exists_cut script.toList
  obtain ⟨htokens, hdiagnostics⟩ := contents_tokenize hls
  rw [htokens] at ht
  obtain ⟨before, l, after, rfl, hl⟩ := Lexeme.exists_of_mem_tokensOf ht
  have hmem : l ∈ before ++ l :: after := by simp
  obtain ⟨rest, hsegment⟩ := hls.segment_of_mem hmem
  have hfindings : l.findings = [] := by
    rw [List.eq_nil_iff_forall_not_mem]
    intro f hf
    obtain ⟨d, hd, -⟩ := Lexeme.exists_mem_diagnosticsOf hmem hf .origin
    rw [← hdiagnostics, hclean] at hd
    cases hd
  cases l with
  | token kind text value faults =>
    obtain rfl : faults = [] := hfindings
    obtain rfl := Option.some.inj hl
    rw [String.toList_ofList]
    exact hsegment.writable
  | trivia text => cases hl
  | unexpected c => cases hl

/-- **Reading undoes writing.** Tokens with writable texts are read back from the script that
consists of them, with nothing to complain about and in the same order. And whatever is read from a
script that there is nothing to complain about can be written, so it is read again from what has
been written.

**Proof sketch.** In front of a blank, what is written of a token is a segment, so the script has a
cut into the tokens and the blanks; and a cut says what is read. Conversely a piece of a cut is
without faults only if it is of one of the writable forms. -/
theorem tokenize_writeTokens :
    (∀ ts : List (TokenKind × String), (∀ t ∈ ts, Lexeme.Writable t.1 t.2.toList) →
      (tokenize (writeTokens ts)).diagnostics = [] ∧
        (tokenize (writeTokens ts)).stream.map Token.content = ts ++ [(.eof, "")]) ∧
    ∀ script : String, (tokenize script).diagnostics = [] →
      (∀ t ∈ (tokenize script).tokens, Lexeme.Writable t.kind t.text.toList) ∧
        (tokenize (writeTokens ((tokenize script).tokens.map Token.content))).diagnostics = [] ∧
        (tokenize (writeTokens ((tokenize script).tokens.map Token.content))).stream.map
            Token.content =
          (tokenize script).stream.map Token.content := by
  refine ⟨fun ts h => tokenize_writeTokens_eq h, fun script hclean => ?_⟩
  have hwritable : ∀ t ∈ (tokenize script).tokens, Lexeme.Writable t.kind t.text.toList :=
    fun t ht => writable_of_mem_tokens hclean ht
  have hcontents : ∀ t ∈ (tokenize script).tokens.map Token.content,
      Lexeme.Writable t.1 t.2.toList := by
    intro t ht
    obtain ⟨u, hu, rfl⟩ := List.mem_map.1 ht
    exact hwritable u hu
  obtain ⟨hnone, hsame⟩ := tokenize_writeTokens_eq hcontents
  refine ⟨hwritable, hnone, ?_⟩
  rw [hsame, Tokenized.stream, List.map_append]
  rfl

/-- Quotes next to quotes: a literal that starts with one behind its opening three, an empty literal
and one with an escaped quote and an escaped line feed. They are read alike where no blanks are
needed to keep the tokens apart. -/
theorem tokenize_writeTokens_quotes :
    let ts : List (TokenKind × String) := [(.blockString, "\"b"), (.mark .semicolon, ";"),
      (.string, ""), (.identifier, "x"), (.string, "\\\"\\\n")]
    let script := "\"\"\"\"b\"\"\";\"\"x\"\\\"\\\n\""
    (∀ t ∈ ts, Lexeme.Writable t.1 t.2.toList) ∧
      writeTokens ts = "\"\"\"\"b\"\"\" ; \"\" x \"\\\"\\\n\" " ∧
      (tokenize (writeTokens ts)).stream.map Token.content = ts ++ [(.eof, "")] ∧
      (tokenize script).diagnostics = [] ∧ (tokenize script).tokens.map Token.content = ts ∧
      ∀ t ∈ (tokenize script).tokens, Lexeme.Writable t.kind t.text.toList := by
  intro ts script
  have hts : ∀ t ∈ ts, Lexeme.Writable t.1 t.2.toList := by
    have hescapes : "\\\"\\\n".toList = ['\\', '"', '\\', '\n'] := by decide
    refine List.forall_mem_cons.2 ⟨.blockString (by decide) (by decide), ?_⟩
    refine List.forall_mem_cons.2 ⟨.mark .semicolon, ?_⟩
    refine List.forall_mem_cons.2 ⟨.string .nil, ?_⟩
    refine List.forall_mem_cons.2 ⟨.identifier (c := 'x') (by decide) (by simp), ?_⟩
    exact List.forall_mem_singleton.2 (.string (hescapes ▸ .escape '"' (.escape '\n' .nil)))
  have hclean : (tokenize script).diagnostics = [] := by decide +kernel
  exact ⟨hts, by decide +kernel, (tokenize_writeTokens.1 ts hts).2, hclean, by decide +kernel,
    (tokenize_writeTokens.2 script hclean).1⟩

end WorkflowLint
