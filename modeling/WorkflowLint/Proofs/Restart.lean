import WorkflowLint.Proofs.Segmentation

/-!
# Reading restarts at a line break

The cut of a text and a line feed followed by another text is the cut of the first, a blank, and the
cut of the second, if no literal of the first is open. The second part is read as if it stood alone,
with all lines counted on from where it starts.

## Main definitions

* `WorkflowLint.Position.shift` and its likes for ranges, tokens and diagnostics — so many lines
  down.
* `WorkflowLint.newlines` — the number of line feeds of a script.

## Main results

* `WorkflowLint.Lexeme.Segment.extend` — a closed segment may stand in front of a line break, too.
* `WorkflowLint.Lexeme.Cut.append` — cuts are joined by a line feed.
* `WorkflowLint.contents_tokenize_append`, `WorkflowLint.stream_append_line` — what is read in a
  script of two parts.
* `WorkflowLint.line_of_mem_tokens`, `WorkflowLint.line_of_mem_diagnostics` — tokens and lexical
  diagnostics start on lines of their script.
-/

set_option autoImplicit false

namespace WorkflowLint

/-! ## Moving down -/

/-- The place so many lines further down. -/
def Position.shift (n : Int) (p : Position) : Position := ⟨p.line + n, p.character⟩

/-- The range so many lines further down. -/
def Range.shift (n : Int) (r : Range) : Range := ⟨r.start.shift n, r.stop.shift n⟩

/-- The token so many lines further down. -/
def Token.shift (n : Int) (t : Token) : Token := { t with range := t.range.shift n }

/-- The diagnostic so many lines further down. -/
def Diagnostic.shift (n : Int) (d : Diagnostic) : Diagnostic := { d with range := d.range.shift n }

/-- The number of line feeds of a script. -/
def newlines (script : String) : Nat := script.toList.count '\n'

namespace Position

/-- A character behind a place further down ends further down. -/
lemma advance_shift (n : Int) (p : Position) (c : Char) :
    (p.shift n).advance c = (p.advance c).shift n := by
  unfold advance
  split
  · simp only [shift, mk.injEq, and_true]
    omega
  · rfl

lemma after_shift (n : Int) (p : Position) (cs : List Char) :
    (p.shift n).after cs = (p.after cs).shift n := by
  induction cs generalizing p with
  | nil => rfl
  | cons c cs ih => rw [after_cons, after_cons, advance_shift, ih]

/-- A line is counted for each line feed. -/
lemma line_after (p : Position) (cs : List Char) :
    (p.after cs).line = p.line + cs.count '\n' := by
  induction cs generalizing p with
  | nil => simp
  | cons c cs ih =>
    rw [after_cons, ih, List.count_cons, advance]
    by_cases hc : c = '\n'
    · simp only [hc, if_true, beq_self_eq_true]
      omega
    · simp [hc]

/-- Behind a text and a line feed, a new line starts. -/
lemma after_line (cs : List Char) :
    (origin.after cs).advance '\n' = origin.shift (cs.count '\n' + 1) := by
  rw [advance, if_pos rfl, line_after]
  simp [origin, shift]

end Position

namespace Lexeme

/-! ## Lexemes further down -/

lemma tokensOf_shift (n : Int) (p : Position) (ls : List Lexeme) :
    tokensOf (p.shift n) ls = (tokensOf p ls).map (Token.shift n) := by
  induction ls generalizing p with
  | nil => rfl
  | cons l ls ih =>
    have hfirst : (l.tokenFrom (p.shift n)).toList =
        (l.tokenFrom p).toList.map (Token.shift n) := by
      cases l with
      | token kind text value faults =>
        simp [tokenFrom, rangeFrom, Token.shift, Range.shift, Position.after_shift]
      | trivia text => rfl
      | unexpected c => rfl
    rw [tokensOf, tokensOf, List.map_append, Position.after_shift, ih, hfirst]

lemma diagnosticsOf_shift (n : Int) (p : Position) (ls : List Lexeme) :
    diagnosticsOf (p.shift n) ls = (diagnosticsOf p ls).map (Diagnostic.shift n) := by
  induction ls generalizing p with
  | nil => rfl
  | cons l ls ih =>
    have hfirst : l.diagnosticsFrom (p.shift n) =
        (l.diagnosticsFrom p).map (Diagnostic.shift n) := by
      simp [diagnosticsFrom, rangeFrom, Diagnostic.shift, Range.shift, Position.after_shift]
    rw [diagnosticsOf, diagnosticsOf, List.map_append, Position.after_shift, ih, hfirst]

lemma tokensOf_append (p : Position) (ls ls' : List Lexeme) :
    tokensOf p (ls ++ ls') = tokensOf p ls ++ tokensOf (p.after (textOf ls)) ls' := by
  induction ls generalizing p with
  | nil => rfl
  | cons l ls ih =>
    rw [List.cons_append, tokensOf, tokensOf, ih, textOf, textOf, List.flatMap_cons,
      Position.after_append, List.append_assoc]

lemma diagnosticsOf_append (p : Position) (ls ls' : List Lexeme) :
    diagnosticsOf p (ls ++ ls') =
      diagnosticsOf p ls ++ diagnosticsOf (p.after (textOf ls)) ls' := by
  induction ls generalizing p with
  | nil => rfl
  | cons l ls ih =>
    rw [List.cons_append, diagnosticsOf, diagnosticsOf, ih, textOf, textOf, List.flatMap_cons,
      Position.after_append, List.append_assoc]

/-! ## Cuts of two parts -/

/-- Is a lexeme a literal without its closing quotes? -/
def IsOpen (l : Lexeme) : Prop :=
  .unterminatedString ∈ l.findings ∨ .unterminatedBlockString ∈ l.findings

/-- What is not true of the first character of a rest is not true of it in front of a line break. -/
lemma head?_append_line {p : Char → Prop} {rest : List Char} (h : ∀ c ∈ rest.head?, p c)
    (hline : p '\n') (cs : List Char) : ∀ c ∈ (rest ++ '\n' :: cs).head?, p c := by
  cases rest with
  | nil =>
    intro c hc
    obtain rfl := Option.some.inj hc
    exact hline
  | cons d rest => exact h

/-- **A segment that is not open may stand in front of a line break, too.**

**Proof sketch.** By cases on the segment: a line feed continues no run, ends a comment, and is no
third quote. -/
lemma Segment.extend {l : Lexeme} {rest : List Char} (h : Segment l rest) (hl : ¬ l.IsOpen)
    (cs : List Char) : Segment l (rest ++ '\n' :: cs) := by
  cases h with
  | blank _ hblank => exact .blank _ hblank
  | comment hbody hrest =>
    refine .comment hbody (.inr ?_)
    rcases hrest with rfl | hrest
    · rfl
    · cases rest with
      | nil => rfl
      | cons c rest => exact hrest
  | identifier hfirst hpart hrest =>
    exact .identifier hfirst hpart (head?_append_line hrest (by decide) cs)
  | number hne hdigit hrest =>
    exact .number hne hdigit (head?_append_line hrest (by decide) cs)
  | blockString _ hbody => exact .blockString _ hbody
  | @string body _ hbody hopen =>
    refine .string hbody fun htriple => ?_
    have hjoin : '"' :: body ++ '"' :: (rest ++ '\n' :: cs) =
        ('"' :: body ++ '"' :: rest) ++ '\n' :: cs := by simp
    rw [hjoin] at htriple
    by_cases hlength : tripleQuote.length ≤ ('"' :: body ++ '"' :: rest).length
    · exact hopen (List.prefix_of_prefix_length_le htriple (List.prefix_append _ _) hlength)
    · -- only the two quotes are left, and the line feed behind them
      simp only [tripleQuote, List.length_append, List.length_cons, List.length_nil] at hlength
      have hbody : body = [] := List.eq_nil_of_length_eq_zero (by omega)
      have hrest : rest = [] := List.eq_nil_of_length_eq_zero (by omega)
      subst hbody hrest
      simp [tripleQuote] at htriple
  | mark m _ => exact .mark m _
  | unexpected _ h₁ h₂ h₃ h₄ h₅ h₆ => exact .unexpected _ h₁ h₂ h₃ h₄ h₅ h₆
  | openBlockString hbody => exact absurd (.inr (List.mem_singleton.2 rfl)) hl
  | brokenString _ hbody => exact absurd (.inl (by simp [findings])) hl
  | openString hbody => exact absurd (.inl (List.mem_singleton.2 rfl)) hl
  | openEscape hbody => exact absurd (.inl (List.mem_singleton.2 rfl)) hl

/-- **Cuts are joined by a line feed.** -/
lemma Cut.append {cs ds : List Char} {ls ms : List Lexeme} (hls : Cut cs ls)
    (hclosed : ∀ l ∈ ls, ¬ l.IsOpen) (hms : Cut ds ms) :
    Cut (cs ++ '\n' :: ds) (ls ++ .trivia ['\n'] :: ms) := by
  induction hls with
  | nil => exact .cons (.blank ds (by decide)) hms
  | @cons l rest ls hl _ ih =>
    rw [List.append_assoc]
    refine .cons (hl.extend (hclosed l (List.mem_cons_self ..)) ds) (ih fun m hm => ?_)
    exact hclosed m (List.mem_cons_of_mem l hm)

/-- What is wrong with a lexeme is among the diagnostics. -/
lemma exists_mem_diagnosticsOf {l : Lexeme} {f : Finding} {ls : List Lexeme} (hl : l ∈ ls)
    (hf : f ∈ l.findings) (p : Position) : ∃ d ∈ diagnosticsOf p ls, d.finding = f := by
  induction ls generalizing p with
  | nil => cases hl
  | cons m ls ih =>
    rw [diagnosticsOf]
    rcases List.mem_cons.1 hl with rfl | hl
    · exact ⟨_, List.mem_append_left _ (List.mem_map.2 ⟨f, hf, rfl⟩), rfl⟩
    · obtain ⟨d, hd, hdf⟩ := ih hl (p.after m.text)
      exact ⟨d, List.mem_append_right _ hd, hdf⟩

end Lexeme

/-! ## Where lexemes start -/

namespace Lexeme

/-- A token is that of a lexeme, which starts behind the lexemes before it. -/
lemma exists_of_mem_tokensOf {t : Token} {ls : List Lexeme} {p : Position}
    (h : t ∈ tokensOf p ls) :
    ∃ before l after, ls = before ++ l :: after ∧
      l.tokenFrom (p.after (textOf before)) = some t := by
  induction ls generalizing p with
  | nil => cases h
  | cons l ls ih =>
    rw [tokensOf, List.mem_append, Option.mem_toList] at h
    rcases h with h | h
    · exact ⟨[], l, ls, rfl, h⟩
    · obtain ⟨before, m, after, rfl, hm⟩ := ih h
      refine ⟨l :: before, m, after, rfl, ?_⟩
      rw [textOf, List.flatMap_cons, Position.after_append]
      exact hm

/-- A lexical diagnostic is that of a lexeme, which starts behind the lexemes before it. -/
lemma exists_of_mem_diagnosticsOf {d : Diagnostic} {ls : List Lexeme} {p : Position}
    (h : d ∈ diagnosticsOf p ls) :
    ∃ before l after, ls = before ++ l :: after ∧
      d ∈ l.diagnosticsFrom (p.after (textOf before)) := by
  induction ls generalizing p with
  | nil => cases h
  | cons l ls ih =>
    rw [diagnosticsOf, List.mem_append] at h
    rcases h with h | h
    · exact ⟨[], l, ls, rfl, h⟩
    · obtain ⟨before, m, after, rfl, hm⟩ := ih h
      refine ⟨l :: before, m, after, rfl, ?_⟩
      rw [textOf, List.flatMap_cons, Position.after_append]
      exact hm

/-- Lexemes before others start on a line of their text. -/
lemma line_after_before {cs : List Char} {before after : List Lexeme} {l : Lexeme}
    (h : textOf (before ++ l :: after) = cs) :
    0 ≤ (Position.origin.after (textOf before)).line ∧
      (Position.origin.after (textOf before)).line ≤ cs.count '\n' := by
  rw [Position.line_after, ← h, textOf, textOf, List.flatMap_append, List.count_append]
  simp only [Position.origin]
  omega

/-- The lexemes of a cut are segments. -/
lemma Cut.segment_of_mem {cs : List Char} {ls : List Lexeme} (h : Cut cs ls) {l : Lexeme}
    (hl : l ∈ ls) : ∃ rest, Segment l rest := by
  induction h with
  | nil => cases hl
  | cons hm _ ih =>
    rcases List.mem_cons.1 hl with rfl | hl
    · exact ⟨_, hm⟩
    · exact ih hl

/-- What is wrong with a segment is an error. -/
lemma Segment.severity_eq {l : Lexeme} {rest : List Char} (h : Segment l rest) {f : Finding}
    (hf : f ∈ l.findings) : f.severity = .error := by
  cases h with
  | openBlockString _ => rw [List.mem_singleton.1 hf]; rfl
  | brokenString _ _ =>
    rcases List.mem_cons.1 hf with rfl | hf
    · rfl
    · rw [List.mem_singleton.1 hf]; rfl
  | openString _ => rw [List.mem_singleton.1 hf]; rfl
  | openEscape _ => rw [List.mem_singleton.1 hf]; rfl
  | unexpected _ _ _ _ _ _ _ => rw [List.mem_singleton.1 hf]; rfl
  | _ => cases hf

end Lexeme

/-- Tokens start on lines of their script. -/
lemma line_of_mem_tokens {script : String} {t : Token} (h : t ∈ (tokenize script).tokens) :
    0 ≤ t.range.start.line ∧ t.range.start.line ≤ newlines script := by
  obtain ⟨before, l, after, hls, ht⟩ := Lexeme.exists_of_mem_tokensOf h
  have hline := Lexeme.line_after_before (hls ▸ Lexeme.textOf_decompose script.toList)
  cases l with
  | token kind text value faults =>
    rw [← Option.some.inj ht]
    exact hline
  | trivia text => cases ht
  | unexpected c => cases ht

/-- Lexical diagnostics start on lines of their script. -/
lemma line_of_mem_diagnostics {script : String} {d : Diagnostic}
    (h : d ∈ (tokenize script).diagnostics) :
    0 ≤ d.range.start.line ∧ d.range.start.line ≤ newlines script := by
  obtain ⟨before, l, after, hls, hd⟩ := Lexeme.exists_of_mem_diagnosticsOf h
  have hline := Lexeme.line_after_before (hls ▸ Lexeme.textOf_decompose script.toList)
  obtain ⟨f, -, rfl⟩ := List.mem_map.1 hd
  exact hline

/-- Lexical diagnostics are errors. -/
lemma severity_of_mem_diagnostics {script : String} {d : Diagnostic}
    (h : d ∈ (tokenize script).diagnostics) : d.severity = .error := by
  obtain ⟨ls, hls⟩ := Lexeme.exists_cut script.toList
  rw [(contents_tokenize hls).2] at h
  obtain ⟨before, l, after, rfl, hd⟩ := Lexeme.exists_of_mem_diagnosticsOf h
  obtain ⟨rest, hl⟩ := hls.segment_of_mem (l := l) (by simp)
  obtain ⟨f, hf, rfl⟩ := List.mem_map.1 hd
  exact hl.severity_eq hf

/-- The end of a script is on its last line. -/
lemma line_eof (script : String) : (tokenize script).eof.range.start.line = newlines script := by
  have hline := Position.line_after .origin script.toList
  simp only [Position.origin, Int.zero_add] at hline
  exact hline

/-! ## Scripts of two parts -/

/-- The scripts in which no literal is left open. -/
def Tokenized.Closed (t : Tokenized) : Prop :=
  ∀ d ∈ t.diagnostics, d.finding ≠ .unterminatedString ∧ d.finding ≠ .unterminatedBlockString

/-- **Reading restarts at a line break.** If no literal of `a` is left open, then the tokens and the
lexical diagnostics of `a`, a line feed and `b` are those of `a`, and behind them those of `b` as
many lines further down as `a` and the line feed take. -/
lemma contents_tokenize_append {a : String} (ha : (tokenize a).Closed) (b : String) :
    (tokenize (a ++ "\n" ++ b)).tokens =
        (tokenize a).tokens ++ (tokenize b).tokens.map (Token.shift (newlines a + 1)) ∧
      (tokenize (a ++ "\n" ++ b)).diagnostics =
        (tokenize a).diagnostics ++
          (tokenize b).diagnostics.map (Diagnostic.shift (newlines a + 1)) ∧
      (tokenize (a ++ "\n" ++ b)).eof = (tokenize b).eof.shift (newlines a + 1) := by
  have htext : (a ++ "\n" ++ b).toList = a.toList ++ '\n' :: b.toList := by
    rw [String.toList_append, String.toList_append, List.append_assoc]
    rfl
  obtain ⟨ls, hls⟩ := Lexeme.exists_cut a.toList
  obtain ⟨ms, hms⟩ := Lexeme.exists_cut b.toList
  have hclosed : ∀ l ∈ ls, ¬ l.IsOpen := by
    rintro l hl (hf | hf)
    · obtain ⟨d, hd, hdf⟩ := Lexeme.exists_mem_diagnosticsOf hl hf .origin
      rw [← (contents_tokenize hls).2] at hd
      exact (ha d hd).1 hdf
    · obtain ⟨d, hd, hdf⟩ := Lexeme.exists_mem_diagnosticsOf hl hf .origin
      rw [← (contents_tokenize hls).2] at hd
      exact (ha d hd).2 hdf
  have hcut := hls.append hclosed hms
  rw [← htext] at hcut
  -- the second part starts where a new line starts
  have hstart : (Position.origin.after a.toList).after ['\n'] =
      Position.origin.shift (newlines a + 1) :=
    Position.after_line a.toList
  refine ⟨?_, ?_, ?_⟩
  · rw [(contents_tokenize hcut).1, (contents_tokenize hls).1, (contents_tokenize hms).1,
      Lexeme.tokensOf_append, hls.textOf_eq, ← Lexeme.tokensOf_shift, ← hstart]
    rfl
  · rw [(contents_tokenize hcut).2, (contents_tokenize hls).2, (contents_tokenize hms).2,
      Lexeme.diagnosticsOf_append, hls.textOf_eq, ← Lexeme.diagnosticsOf_shift, ← hstart]
    rfl
  · have hend : Position.origin.after (a ++ "\n" ++ b).toList =
        (Position.origin.after b.toList).shift (newlines a + 1) := by
      rw [htext, ← Position.after_shift, ← hstart, Position.after_append]
      rfl
    simp only [tokenize, hend]
    rfl

/-- **The tokens of a script of two parts.** If no literal of `a` is left open, then the token
stream of `a`, a line feed and `b` is that of `a` without its end, and behind it that of `b` with its
end; and the lexical diagnostics are those of `a` and behind them those of `b`. Whatever is of `b`
stands at its own column, as many lines further down as `a` has line feeds and one more.

**Proof sketch.** No piece of `a` looks at more of what is behind it than its first character, or
its first three if that is a quote, and a line feed is as good there as the end of the script
(`Lexeme.Segment.extend`). So the cuts of both parts make up the cut of the whole. -/
theorem stream_append_line {a : String} (ha : (tokenize a).Closed) (b : String) :
    (tokenize (a ++ "\n" ++ b)).stream =
        (tokenize a).tokens ++ (tokenize b).stream.map (Token.shift (newlines a + 1)) ∧
      (tokenize (a ++ "\n" ++ b)).diagnostics =
        (tokenize a).diagnostics ++
          (tokenize b).diagnostics.map (Diagnostic.shift (newlines a + 1)) := by
  obtain ⟨htokens, hdiagnostics, heof⟩ := contents_tokenize_append ha b
  refine ⟨?_, hdiagnostics⟩
  rw [Tokenized.stream, Tokenized.stream, htokens, heof, List.map_append, List.append_assoc]
  rfl

/-- Two quotes at the end of the first part, and one at the start of the second, are not three in a
row. -/
theorem stream_append_line_quotes :
    (tokenize "@ \"\"").Closed ∧
      (tokenize ("@ \"\"" ++ "\n" ++ "\"b\"?")).stream =
        [⟨.string, "", ⟨⟨0, 2⟩, ⟨0, 4⟩⟩⟩, ⟨.string, "b", ⟨⟨1, 0⟩, ⟨1, 3⟩⟩⟩, .eofAt ⟨1, 4⟩] ∧
      (tokenize ("@ \"\"" ++ "\n" ++ "\"b\"?")).diagnostics =
        [⟨.unexpectedCharacter '@', ⟨⟨0, 0⟩, ⟨0, 1⟩⟩⟩,
          ⟨.unexpectedCharacter '?', ⟨⟨1, 3⟩, ⟨1, 4⟩⟩⟩] := by
  have hclosed : (tokenize "@ \"\"").Closed := by
    unfold Tokenized.Closed
    decide +kernel
  obtain ⟨hstream, hdiagnostics⟩ := stream_append_line hclosed "\"b\"?"
  rw [hstream, hdiagnostics]
  exact ⟨hclosed, by decide +kernel, by decide +kernel⟩

end WorkflowLint
