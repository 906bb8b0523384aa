import WorkflowLint.Proofs.LineEnd
import WorkflowLint.Proofs.ReportLines

/-!
# Two spellings of line breaks

A script may be stored with a carriage return in front of every line feed. If nothing is wrong with
its tokens, this makes no difference. Between tokens the carriage return is blank, at the end of a
comment it is part of the comment, and in a block string it is part of a text that is told from
others, and found to be blank, as before. Only the line feed behind it decides where the next
character stands. Quoted literals must not go over a line break: a backslash would escape the
carriage return, and leave the line feed to end the literal.

## Main definitions

* `WorkflowLint.Text.pairNewlines` — a text with a carriage return in front of every line feed.
* `WorkflowLint.Text.joinNewlines` — a text with pairs of the two replaced by line feeds.

## Main results

* `WorkflowLint.Text.joinNewlines_pairNewlines` — replacing takes back the pairing.
* `WorkflowLint.Lexeme.Cut.pairLines` — the cut of a text with paired line breaks.
* `WorkflowLint.lint_pairNewlines` — the same is found in both spellings.
-/

set_option autoImplicit false

namespace WorkflowLint

/-! ## Texts -/

namespace Text

/-- The text with a carriage return in front of every line feed. -/
def pairLines (cs : List Char) : List Char :=
  cs.flatMap fun c => if c = '\n' then ['\r', '\n'] else [c]

/-- The text with a line feed in place of every carriage return that has one behind it, and of that
line feed. -/
def joinLines : List Char → List Char
  | '\r' :: '\n' :: cs => '\n' :: joinLines cs
  | c :: cs => c :: joinLines cs
  | [] => []

/-- The text with a carriage return in front of every line feed. -/
def pairNewlines (s : String) : String := String.ofList (pairLines s.toList)

/-- The text with a line feed for every pair of a carriage return and a line feed. -/
def joinNewlines (s : String) : String := String.ofList (joinLines s.toList)

lemma pairLines_append (cs ds : List Char) : pairLines (cs ++ ds) = pairLines cs ++ pairLines ds :=
  List.flatMap_append

@[simp] lemma pairLines_cons_newline (cs : List Char) :
    pairLines ('\n' :: cs) = '\r' :: '\n' :: pairLines cs := rfl

lemma pairLines_cons_of_ne {c : Char} (h : c ≠ '\n') (cs : List Char) :
    pairLines (c :: cs) = c :: pairLines cs := by
  rw [pairLines, List.flatMap_cons, if_neg h]
  rfl

/-- A text of one line stays as it is. -/
lemma pairLines_of_not_mem {cs : List Char} (h : '\n' ∉ cs) : pairLines cs = cs := by
  induction cs with
  | nil => rfl
  | cons c cs ih =>
    rw [List.mem_cons, not_or] at h
    rw [pairLines_cons_of_ne (Ne.symm h.1), ih h.2]

/-- A text with paired line breaks starts like the text itself, or with a carriage return. -/
lemma head?_pairLines (cs : List Char) :
    ∀ c ∈ (pairLines cs).head?, c ≠ '\n' ∧ (cs.head? = some c ∨ c = '\r') := by
  intro c hc
  cases cs with
  | nil => cases hc
  | cons d cs =>
    by_cases hd : d = '\n'
    · subst hd
      obtain rfl : '\r' = c := Option.some.inj hc
      exact ⟨by decide, .inr rfl⟩
    · rw [pairLines_cons_of_ne hd] at hc
      obtain rfl : d = c := Option.some.inj hc
      exact ⟨hd, .inl rfl⟩

/-! ### Taking back -/

/-- In front of anything but a line feed, a character is kept. -/
lemma joinLines_cons (c : Char) {cs : List Char} (h : cs.head? ≠ some '\n') :
    joinLines (c :: cs) = c :: joinLines cs := by
  refine joinLines.eq_2 c cs fun ds _ hds => h ?_
  rw [hds]
  rfl

lemma joinLines_append (cs : List Char) {ds : List Char} (h : ds.head? ≠ some '\n') :
    joinLines (cs ++ ds) = joinLines cs ++ joinLines ds := by
  fun_induction joinLines cs with
  | case1 cs ih => rw [List.cons_append, List.cons_append, joinLines, ih, List.cons_append]
  | case2 c cs hpair ih =>
    rw [List.cons_append, List.cons_append, ← ih]
    refine joinLines.eq_2 c _ fun es hc hes => ?_
    cases cs with
    | nil => exact h (by rw [← List.nil_append ds, hes]; rfl)
    | cons d cs =>
      obtain ⟨rfl, -⟩ := List.cons.inj hes
      exact hpair cs hc rfl
  | case3 => rfl

/-- **Joining takes back the pairing.** -/
lemma joinLines_pairLines (cs : List Char) : joinLines (pairLines cs) = cs := by
  induction cs with
  | nil => rfl
  | cons c cs ih =>
    by_cases hc : c = '\n'
    · rw [hc, pairLines_cons_newline, joinLines, ih]
    · rw [pairLines_cons_of_ne hc, joinLines_cons, ih]
      exact fun hhead => (head?_pairLines cs '\n' hhead).1 rfl

/-- No quotes come together where line breaks are paired. -/
lemma tripleQuote_infix_of_pairLines {cs : List Char}
    (h : Lexeme.tripleQuote <:+: pairLines cs) : Lexeme.tripleQuote <:+: cs := by
  obtain ⟨front, back, hcs⟩ := h
  refine ⟨joinLines front, joinLines back, ?_⟩
  have hquotes : (Lexeme.tripleQuote ++ back).head? ≠ some '\n' := by simp [Lexeme.tripleQuote]
  rw [← joinLines_pairLines cs, ← hcs, List.append_assoc, List.append_assoc,
    joinLines_append _ hquotes]
  rfl

/-! ### Strings -/

lemma pairNewlines_append (s s' : String) :
    pairNewlines (s ++ s') = pairNewlines s ++ pairNewlines s' := by
  rw [pairNewlines, String.toList_append, pairLines_append, String.ofList_append, pairNewlines,
    pairNewlines]

lemma pairNewlines_of_isLine {s : String} (h : IsLine s) : pairNewlines s = s := by
  rw [pairNewlines, pairLines_of_not_mem h, String.ofList_toList]

@[simp] lemma joinNewlines_pairNewlines (s : String) : joinNewlines (pairNewlines s) = s := by
  rw [joinNewlines, pairNewlines, String.toList_ofList, joinLines_pairLines, String.ofList_toList]

/-- A carriage return is as blank as the line feed behind it. -/
lemma allBlank_pairNewlines (s : String) : allBlank (pairNewlines s) = allBlank s := by
  have hblank : ∀ c, (if c = '\n' then ['\r', '\n'] else [c]).all isBlank = isBlank c := by
    intro c
    split
    · rename_i hc
      subst hc
      decide
    · exact Bool.and_true _
  rw [allBlank, pairNewlines, String.toList_ofList, pairLines, List.all_flatMap]
  simp only [hblank]
  rfl

/-- A check cannot tell whether the line breaks in literals are paired. -/
lemma respells_pairNewlines : Respells pairNewlines fun _ => True where
  injective {x y} _ _ h := by
    rw [← joinNewlines_pairNewlines x, h, joinNewlines_pairNewlines]
  allBlank_eq _ := allBlank_pairNewlines _

end Text

/-- **Places are the same**, because the column of a carriage return is forgotten at the line feed
behind it. -/
lemma Position.after_pairLines (p : Position) (cs : List Char) :
    p.after (Text.pairLines cs) = p.after cs := by
  induction cs generalizing p with
  | nil => rfl
  | cons c cs ih =>
    by_cases hc : c = '\n'
    · subst hc
      have hbreak : (p.advance '\r').advance '\n' = p.advance '\n' := rfl
      rw [Text.pairLines_cons_newline, after_cons, after_cons, hbreak, ih, after_cons]
    · rw [Text.pairLines_cons_of_ne hc, after_cons, ih, after_cons]

/-! ## Pieces -/

namespace Lexeme

/-- The body of a block string stays one. -/
lemma Blockable.pairLines {body : List Char} (h : Blockable body) :
    Blockable (Text.pairLines body) := by
  have hquotes : Text.pairLines (body ++ ['"', '"']) = Text.pairLines body ++ ['"', '"'] :=
    Text.pairLines_append body ['"', '"']
  rw [blockable_iff] at h ⊢
  rw [← hquotes]
  exact fun hinfix => h (Text.tripleQuote_infix_of_pairLines hinfix)

section Token

variable {kind : TokenKind} {w value rest : List Char}

/-- Block strings apart, and quoted literals if they do not go over a line break, a token is on one
line. -/
lemma Segment.newline_not_mem (h : Segment (.token kind w value []) rest)
    (hblock : kind ≠ .blockString) (hline : kind = .string → '\n' ∉ value) : '\n' ∉ w := by
  by_cases hstring : kind = .string
  · subst hstring
    cases h with
    | string _ _ => simpa using hline rfl
  · exact (h.newline_not_mem_of_kind (by simp [TokenKind.literals, hstring, hblock])).2

variable (h : Segment (.token kind w value []) rest) (hline : kind = .string → '\n' ∉ value)
include h hline

/-- **A token with paired line breaks** may stand in front of the rest with paired line breaks. -/
lemma Segment.pairLines :
    Segment (.token kind (Text.pairLines w) (Text.pairLines value) []) (Text.pairLines rest) := by
  by_cases hblock : kind = .blockString
  · subst hblock
    cases h with
    | blockString _ hbody =>
      rw [Text.pairLines_append, Text.pairLines_append]
      exact .blockString _ hbody.pairLines
  · have hw := h.newline_not_mem hblock hline
    have hvalue : '\n' ∉ value := fun hmem => hw (h.value_subset hmem)
    rw [Text.pairLines_of_not_mem hw, Text.pairLines_of_not_mem hvalue]
    refine h.spaced fun c hc => ?_
    rcases (Text.head?_pairLines rest c hc).2 with hsame | rfl
    · exact .inl hsame
    · exact .inr (.inl (by decide))

/-- It is the same token at the same place, up to the spelling of literals. -/
lemma Segment.tokenFrom_pairLines (p : Position) :
    (token kind (Text.pairLines w) (Text.pairLines value) []).tokenFrom p =
      ((token kind w value []).tokenFrom p).map (.respell Text.pairNewlines) := by
  have hvalue : String.ofList (Text.pairLines value) =
      if kind ∈ TokenKind.literals then Text.pairNewlines (String.ofList value)
      else String.ofList value := by
    split
    · rw [Text.pairNewlines, String.toList_ofList]
    · rename_i hkind
      have hblock : kind ≠ .blockString := fun heq => hkind (by rw [heq]; decide)
      have hw := h.newline_not_mem hblock hline
      rw [Text.pairLines_of_not_mem fun hmem => hw (h.value_subset hmem)]
  simp only [tokenFrom, rangeFrom, text, Position.after_pairLines, hvalue]
  rfl

end Token

/-- A blank character that a text starts with is a piece of its own. -/
lemma Cut.of_blank {c : Char} {cs : List Char} {ls : List Lexeme} (hc : isBlank c = true)
    (h : Cut (c :: cs) ls) : ∃ ls', ls = .trivia [c] :: ls' ∧ Cut cs ls' := by
  generalize htext : c :: cs = text at h
  cases h with
  | nil => cases htext
  | @cons l rest ls hl hls =>
    obtain ⟨d, ds, hds, hsegment⟩ := hl.segment_eq
    obtain ⟨rfl, rfl⟩ := List.cons.inj (htext.trans hds)
    obtain rfl : .trivia [c] = l := by rw [← hsegment, segment, if_pos hc]
    obtain rfl : rest = cs := List.append_cancel_left hds
    exact ⟨ls, rfl, hls⟩

/-- A comment takes in the carriage return at the end of its line. -/
lemma Cut.comment_pairLines {body rest : List Char} {ms : List Lexeme}
    (hbody : ∀ c ∈ body, c ≠ '\n') (hend : rest = [] ∨ rest.head? = some '\n')
    (h : Cut (Text.pairLines rest) ms) :
    ∃ ms', Cut (Text.pairLines ('#' :: body ++ rest)) ms' ∧
      ∀ p : Position, contents p ms' = contents (p.after ('#' :: body)) ms := by
  have hline : Text.pairLines ('#' :: body) = '#' :: body := by
    refine Text.pairLines_of_not_mem fun hmem => ?_
    exact (List.mem_cons.1 hmem).elim (by decide) fun hmem => hbody _ hmem rfl
  rw [Text.pairLines_append, hline]
  rcases hend with rfl | hhead
  · exact ⟨.trivia ('#' :: body) :: ms, .cons (.comment hbody (.inl rfl)) h, fun p => rfl⟩
  · obtain ⟨tail, rfl⟩ := List.head?_eq_some_iff.1 hhead
    obtain ⟨ms, rfl, hms⟩ := h.of_blank (by decide)
    have hbody' : ∀ c ∈ body ++ ['\r'], c ≠ '\n' :=
      List.forall_mem_append.2 ⟨hbody, by simp⟩
    refine ⟨.trivia ('#' :: (body ++ ['\r'])) :: ms, ?_, fun p => ?_⟩
    · have hcut := Cut.cons (.comment hbody' (.inr rfl)) hms
      rwa [text, List.cons_append, List.append_assoc] at hcut
    · rw [contents_trivia, contents_trivia, ← List.cons_append, Position.after_append]

/-- **The cut of a text with paired line breaks** has the same tokens at the same places, up to the
spelling of literals, if nothing is wrong with them and no quoted literal goes over a line break.

**Proof sketch.** Induction on the cut. A line feed between tokens becomes two blanks; a comment
takes in the carriage return behind it; a token stays where it is. -/
lemma Cut.pairLines {cs : List Char} {ls : List Lexeme} (h : Cut cs ls)
    (hclean : ∀ l ∈ ls, l.findings = [])
    (hline : ∀ w value faults, .token .string w value faults ∈ ls → '\n' ∉ value) :
    ∃ ms, Cut (Text.pairLines cs) ms ∧ ∀ p, contents p ms =
      ((tokensOf p ls).map (.respell Text.pairNewlines), []) := by
  induction h with
  | nil => exact ⟨[], .nil, fun p => rfl⟩
  | @cons l rest ls hl _ ih =>
    obtain ⟨ms, hms, hcontents⟩ := ih (fun m hm => hclean m (List.mem_cons_of_mem l hm))
      fun w value faults hmem => hline w value faults (List.mem_cons_of_mem l hmem)
    have hfindings := hclean l (List.mem_cons_self ..)
    cases l with
    | trivia t =>
      cases hl with
      | @blank c _ hblank =>
        by_cases hc : c = '\n'
        · subst hc
          exact ⟨.trivia ['\r'] :: .trivia ['\n'] :: ms,
            .cons (.blank _ (by decide)) (.cons (.blank _ hblank) hms), fun p => hcontents _⟩
        · have hkept : Text.pairLines ([c] ++ rest) = c :: Text.pairLines rest :=
            Text.pairLines_cons_of_ne hc rest
          exact ⟨.trivia [c] :: ms, hkept ▸ .cons (.blank _ hblank) hms, fun p => hcontents _⟩
      | comment hbody hend =>
        obtain ⟨ms', hms', hcontents'⟩ := hms.comment_pairLines hbody hend
        exact ⟨ms', hms', fun p => (hcontents' p).trans (hcontents _)⟩
    | token kind w value faults =>
      obtain rfl : faults = [] := hfindings
      have hvalue : kind = .string → '\n' ∉ value := by
        rintro rfl
        exact hline w value [] (List.mem_cons_self ..)
      refine ⟨.token kind (Text.pairLines w) (Text.pairLines value) [] :: ms, ?_, fun p => ?_⟩
      · rw [Text.pairLines_append]
        exact .cons (hl.pairLines hvalue) hms
      · obtain ⟨htokens, hdiagnostics⟩ := Prod.mk.inj (hcontents (p.after w))
        have hstop : p.after (Text.pairLines w) = p.after w := p.after_pairLines w
        have htoken := hl.tokenFrom_pairLines hvalue p
        rw [contents, tokensOf, diagnosticsOf, htoken, text, hstop, htokens, hdiagnostics]
        rfl
    | unexpected c => cases hfindings

end Lexeme

/-! ## Scripts -/

/-- The texts of tokens are paired, whatever their kinds: a token that is no literal is one line. -/
lemma Token.text_respell_pairNewlines {script : String} {t : Token}
    (h : t ∈ (tokenize script).stream) :
    (t.respell Text.pairNewlines).text = Text.pairNewlines t.text := by
  by_cases hkind : t.kind ∈ TokenKind.literals
  · exact Token.text_respell hkind
  · rw [Token.respell_of_kind hkind, Text.pairNewlines_of_isLine (isLine_of_mem_stream h hkind)]

/-- The messages of two spellings are two spellings of a message. -/
lemma Diagnostic.message_respell_pairNewlines {script : String} {d : Diagnostic}
    (h : d ∈ lint script) :
    (d.respell Text.pairNewlines).message = Text.pairNewlines d.message := by
  have hquote {front back : String} (hfront : IsLine front) (hback : IsLine back) (x : String) :
      front ++ Text.pairNewlines x ++ back = Text.pairNewlines (front ++ x ++ back) := by
    rw [Text.pairNewlines_append, Text.pairNewlines_append, Text.pairNewlines_of_isLine hfront,
      Text.pairNewlines_of_isLine hback]
  have hplain : d.finding.literal? = none → Text.pairNewlines d.message = d.message := by
    intro hnone
    refine Text.pairNewlines_of_isLine ((isLine_message_iff h).2 fun x hx => ?_)
    rw [hnone] at hx
    cases hx
  obtain ⟨finding, range⟩ := d
  cases finding with
  | unmatchedTiebreaker label => exact hquote (.ofList (by rfl)) (.ofList (by rfl)) label
  | duplicateSourcePath path => exact hquote (.ofList (by rfl)) (.ofList (by rfl)) path
  | _ => exact (hplain rfl).symm

/-- **A script with paired line breaks is read alike**, up to the spelling of literals. -/
lemma tokenize_pairNewlines {script : String} (hclean : (tokenize script).diagnostics = [])
    (hline : ∀ t ∈ (tokenize script).tokens, t.kind = .string → IsLine t.text) :
    tokenize (Text.pairNewlines script) =
      ⟨(tokenize script).tokens.map (.respell Text.pairNewlines),
        (tokenize script).eof.respell Text.pairNewlines, []⟩ := by
  obtain ⟨ls, hls⟩ := Lexeme.exists_cut script.toList
  obtain ⟨htokens, -⟩ := contents_tokenize hls
  have hvalue : ∀ w value faults, .token .string w value faults ∈ ls → '\n' ∉ value := by
    intro w value faults hmem
    obtain ⟨t, ht, hkind, htext⟩ := Lexeme.exists_mem_tokensOf hmem .origin
    rw [← htokens] at ht
    have hmemText := hline t ht hkind
    rwa [IsLine, htext, String.toList_ofList] at hmemText
  obtain ⟨ms, hms, hcontents⟩ := hls.pairLines (hls.findings_eq_nil hclean) hvalue
  have hpaired : (Text.pairNewlines script).toList = Text.pairLines script.toList :=
    String.toList_ofList
  rw [← hpaired] at hms
  obtain ⟨htokens', hdiagnostics'⟩ := contents_tokenize hms
  obtain ⟨hrespelled, hnone⟩ := Prod.mk.inj (hcontents .origin)
  have heof : (tokenize (Text.pairNewlines script)).eof =
      (tokenize script).eof.respell Text.pairNewlines := by
    have hend := Position.origin.after_pairLines script.toList
    rw [← hpaired] at hend
    rw [Token.respell_of_kind (not_mem_literals_eof script)]
    exact congrArg Token.eofAt hend
  rw [← heof, htokens, ← hrespelled, ← htokens', ← hnone, ← hdiagnostics']

/-- **The same is found in both spellings.** -/
lemma lint_eq_map_respell_pairNewlines {script : String}
    (hclean : (tokenize script).diagnostics = [])
    (hline : ∀ t ∈ (tokenize script).tokens, t.kind = .string → IsLine t.text) :
    lint (Text.pairNewlines script) = (lint script).map (.respell Text.pairNewlines) := by
  have hstart : Checker.ofTokenized (tokenize (Text.pairNewlines script)) =
      (Checker.ofTokenized (tokenize script)).respell Text.pairNewlines := by
    rw [tokenize_pairNewlines hclean hline, Checker.ofTokenized, Checker.ofTokenized, hclean]
    rfl
  rw [lint, lint, hstart, Check.finish_respell Text.respells_pairNewlines fun _ _ _ => trivial,
    Checker.diagnostics_respell]

/-! ## The main result -/

/-- **Line breaks may be spelled either way.** Let nothing be wrong with the tokens of a script, and
let no quoted literal go over a line break. If all line breaks are paired, nothing is wrong with the
tokens, either; they have the same kinds and ranges, and the same texts once line breaks are joined
again; and the diagnostics are equally many, in the same order, with the same severities and ranges,
and the same messages once line breaks are joined again.

**Proof sketch.** The cut of the paired text has the same tokens at the same places, and literals
are told apart and found to be blank as before, so the check takes the same turns. Messages that
quote no literal are lines. -/
theorem lint_pairNewlines {script : String} (hclean : (tokenize script).diagnostics = [])
    (hline : ∀ t ∈ (tokenize script).tokens, t.kind = .string → IsLine t.text) :
    (tokenize (Text.pairNewlines script)).diagnostics = [] ∧
      List.Forall₂ (fun t t' => t'.kind = t.kind ∧ t'.range = t.range ∧
          Text.joinNewlines t'.text = t.text)
        (tokenize script).stream (tokenize (Text.pairNewlines script)).stream ∧
      List.Forall₂ (fun d d' => d'.severity = d.severity ∧ d'.range = d.range ∧
          Text.joinNewlines d'.message = d.message)
        (lint script) (lint (Text.pairNewlines script)) := by
  have hread := tokenize_pairNewlines hclean hline
  have hstream : (tokenize (Text.pairNewlines script)).stream =
      (tokenize script).stream.map (.respell Text.pairNewlines) := by
    rw [hread, Tokenized.stream, Tokenized.stream, List.map_append]
    rfl
  refine ⟨by rw [hread], ?_, ?_⟩
  · rw [hstream, List.forall₂_map_right_iff, List.forall₂_same]
    intro t ht
    refine ⟨rfl, rfl, ?_⟩
    rw [Token.text_respell_pairNewlines ht, Text.joinNewlines_pairNewlines]
  · rw [lint_eq_map_respell_pairNewlines hclean hline, List.forall₂_map_right_iff,
      List.forall₂_same]
    intro d hd
    refine ⟨d.severity_respell, d.range_respell, ?_⟩
    rw [Diagnostic.message_respell_pairNewlines hd, Text.joinNewlines_pairNewlines]

/-- A rubric with a comment, and with a tiebreaker that goes over two lines and is no criterion. -/
theorem lint_pairNewlines_two_line_tiebreaker :
    lint "rubric R \x7b # ties\ntiebreakers [\"\"\"a\nb\"\"\"]; \x7d" =
        [⟨.unmatchedTiebreaker "a\nb", ⟨⟨1, 13⟩, ⟨2, 4⟩⟩⟩] ∧
      List.Forall₂ (fun d d' => d'.severity = d.severity ∧ d'.range = d.range ∧
          Text.joinNewlines d'.message = d.message)
        (lint "rubric R \x7b # ties\ntiebreakers [\"\"\"a\nb\"\"\"]; \x7d")
        (lint "rubric R \x7b # ties\r\ntiebreakers [\"\"\"a\r\nb\"\"\"]; \x7d") := by
  have hpaired : Text.pairNewlines "rubric R \x7b # ties\ntiebreakers [\"\"\"a\nb\"\"\"]; \x7d" =
      "rubric R \x7b # ties\r\ntiebreakers [\"\"\"a\r\nb\"\"\"]; \x7d" := by decide +kernel
  refine ⟨by decide +kernel, ?_⟩
  rw [← hpaired]
  exact (lint_pairNewlines (by decide +kernel) (by decide +kernel)).2.2

end WorkflowLint
