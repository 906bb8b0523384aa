import WorkflowLint.Proofs.Offset

/-!
# Blank space and comments in front of tokens

What is found in a script does not depend on how it is laid out. If blank space and comment lines
are put in front of tokens, the same tokens are read, only elsewhere; the check takes the same turns
and reports on the same tokens; and the reports are sorted alike, because in both layouts the tokens
start in the order in which they stand.

## Main definitions

* `WorkflowLint.Lexeme.Filler` — blank space and whole comment lines.
* `WorkflowLint.Lexeme.Spaced`, `WorkflowLint.SpacedOut` — a text with filler in front of tokens.
* `WorkflowLint.Token.content` — a token without its place.

## Main results

* `WorkflowLint.Lexeme.Cut.spaced` — the cut of a spaced text has the same pieces, trivia apart.
* `WorkflowLint.start_le_iff` — tokens start in the order in which they stand.
* `WorkflowLint.lint_spaced_out` — a script that is spaced out has the same findings.
-/

set_option autoImplicit false

namespace WorkflowLint

namespace Lexeme

/-! ## Filler -/

/-- Blank characters and comments, each up to the end of its line and with that end. -/
inductive Filler : List Char → Prop
  | nil : Filler []
  | blank {c : Char} {cs : List Char} : isBlank c = true → Filler cs → Filler (c :: cs)
  | comment {body cs : List Char} :
      (∀ c ∈ body, c ≠ '\n') → Filler cs → Filler ('#' :: (body ++ '\n' :: cs))

/-- `Spaced ls cs`: the text `cs` is that of the lexemes `ls` with filler in front of any of the
tokens and at the end. -/
inductive Spaced : List Lexeme → List Char → Prop
  | ending {w : List Char} : Filler w → Spaced [] w
  | trivia (t : List Char) {ls : List Lexeme} {cs : List Char} :
      Spaced ls cs → Spaced (.trivia t :: ls) (t ++ cs)
  | token (kind : TokenKind) (text value : List Char) (faults : List Finding) {w : List Char}
      {ls : List Lexeme} {cs : List Char} :
      Filler w → Spaced ls cs → Spaced (.token kind text value faults :: ls) (w ++ (text ++ cs))

/-- Is a lexeme more than trivia? -/
def isSolid : Lexeme → Bool
  | .trivia _ => false
  | _ => true

/-- The lexemes that are more than trivia. -/
def solid (ls : List Lexeme) : List Lexeme := ls.filter isSolid

@[simp] lemma solid_token (kind : TokenKind) (text value : List Char) (faults : List Finding)
    (ls : List Lexeme) :
    solid (.token kind text value faults :: ls) = .token kind text value faults :: solid ls := rfl

/-- Does a character start filler? -/
def StartsFiller (c : Char) : Prop := isBlank c = true ∨ c = '#'

lemma Filler.head {w : List Char} (h : Filler w) : ∀ c ∈ w.head?, StartsFiller c := by
  intro c hc
  cases h with
  | nil => cases hc
  | blank hblank _ =>
    rw [← Option.some.inj hc]
    exact .inl hblank
  | comment _ _ =>
    rw [← Option.some.inj hc]
    exact .inr rfl

/-- Filler in front of a text adds trivia to its cut. -/
lemma Filler.cut {w cs : List Char} {ls : List Lexeme} (h : Filler w) (hls : Cut cs ls) :
    ∃ ms, Cut (w ++ cs) ms ∧ solid ms = solid ls := by
  induction h with
  | nil => exact ⟨ls, hls, rfl⟩
  | @blank c w hblank _ ih =>
    obtain ⟨ms, hms, hsolid⟩ := ih
    exact ⟨.trivia [c] :: ms, .cons (.blank _ hblank) hms, hsolid⟩
  | @comment body w hbody _ ih =>
    obtain ⟨ms, hms, hsolid⟩ := ih
    have hline : Cut ('\n' :: (w ++ cs)) (.trivia ['\n'] :: ms) := .cons (.blank _ (by decide)) hms
    have hcomment := Cut.cons (.comment hbody (.inr rfl)) hline
    exact ⟨.trivia ('#' :: body) :: .trivia ['\n'] :: ms, by simpa [text] using hcomment, hsolid⟩

/-- Filler has no line feed, or is filler again behind the first one. -/
lemma Filler.line {w : List Char} (h : Filler w) :
    (∀ c ∈ w, c ≠ '\n') ∨ ∃ u v, w = u ++ '\n' :: v ∧ (∀ c ∈ u, c ≠ '\n') ∧ Filler v := by
  induction h with
  | nil => exact .inl (by simp)
  | @blank c w _ hw ih =>
    by_cases hc : c = '\n'
    · exact .inr ⟨[], w, by rw [hc]; rfl, by simp, hw⟩
    · rcases ih with hline | ⟨u, v, rfl, hu, hv⟩
      · exact .inl (List.forall_mem_cons.2 ⟨hc, hline⟩)
      · exact .inr ⟨c :: u, v, rfl, List.forall_mem_cons.2 ⟨hc, hu⟩, hv⟩
  | @comment body w hbody hw _ =>
    exact .inr ⟨'#' :: body, w, rfl, List.forall_mem_cons.2 ⟨by decide, hbody⟩, hw⟩

/-- A comment that runs up to the end of the text takes in the filler behind it, as far as the next
end of a line. -/
lemma Filler.cut_comment {body w : List Char} (hbody : ∀ c ∈ body, c ≠ '\n') (h : Filler w) :
    ∃ ms, Cut ('#' :: (body ++ w)) ms ∧ solid ms = [] := by
  rcases h.line with hw | ⟨u, v, rfl, hu, hv⟩
  · have hjoin : ∀ c ∈ body ++ w, c ≠ '\n' := List.forall_mem_append.2 ⟨hbody, hw⟩
    have hcut := Cut.cons (.comment hjoin (.inl rfl)) Cut.nil
    exact ⟨[.trivia ('#' :: (body ++ w))], by simpa [text] using hcut, rfl⟩
  · have hjoin : ∀ c ∈ body ++ u, c ≠ '\n' := List.forall_mem_append.2 ⟨hbody, hu⟩
    obtain ⟨ms, hms, hsolid⟩ := hv.cut .nil
    rw [List.append_nil] at hms
    have hline : Cut ('\n' :: v) (.trivia ['\n'] :: ms) := .cons (.blank _ (by decide)) hms
    have hcut := Cut.cons (.comment hjoin (.inr rfl)) hline
    exact ⟨.trivia ('#' :: (body ++ u)) :: .trivia ['\n'] :: ms, by simpa [text] using hcut, hsolid⟩

/-! ## The cut of a spaced text -/

/-- A spaced text starts like the text itself, or with filler. -/
lemma Spaced.head {cs cs' : List Char} {ls : List Lexeme} (hls : Cut cs ls) (h : Spaced ls cs') :
    ∀ c ∈ cs'.head?, cs.head? = some c ∨ StartsFiller c := by
  intro c hc
  cases hls with
  | nil =>
    cases h with
    | ending hw => exact .inr (hw.head c hc)
  | @cons l rest ls hl _ =>
    have hne := hl.text_ne_nil
    cases h with
    | trivia t _ =>
      obtain ⟨d, ds, rfl⟩ := List.exists_cons_of_ne_nil hne
      exact .inl hc
    | @token kind w value faults f _ _ hf _ =>
      cases f with
      | nil =>
        replace hne : w ≠ [] := hne
        obtain ⟨d, ds, rfl⟩ := List.exists_cons_of_ne_nil hne
        exact .inl hc
      | cons d ds => exact .inr (hf.head c hc)

/-- In front of the end of a line there is no token, so a spaced text has it there, too. -/
lemma Spaced.head_line {cs cs' : List Char} {ls : List Lexeme} (hls : Cut cs ls)
    (h : Spaced ls cs') (hline : cs.head? = some '\n') : cs'.head? = some '\n' := by
  cases hls with
  | nil => cases hline
  | @cons l rest ls hl _ =>
    obtain ⟨c, ds, htext, hsegment⟩ := hl.segment_eq
    rw [htext] at hline
    obtain rfl : c = '\n' := Option.some.inj hline
    obtain rfl : Lexeme.trivia ['\n'] = l := hsegment
    cases h with
    | trivia _ _ => rfl

/-- **A token without faults may stand in front of filler, too.**

**Proof sketch.** By cases on the segment: what starts filler continues no run, and is no third
quote. -/
lemma Segment.spaced {kind : TokenKind} {w value rest rest' : List Char}
    (h : Segment (.token kind w value []) rest)
    (hhead : ∀ c ∈ rest'.head?, rest.head? = some c ∨ StartsFiller c) :
    Segment (.token kind w value []) rest' := by
  cases h with
  | identifier hfirst hpart hrest =>
    refine .identifier hfirst hpart fun c hc => ?_
    rcases hhead c hc with hsame | hblank | rfl
    · exact hrest c hsame
    · by_contra hname
      have hclass := isBlank_eq_false_of_class (p := isNamePart) (by simpa using hname) (by decide)
      rw [hclass] at hblank
      exact Bool.noConfusion hblank
    · decide
  | number hne hdigit hrest =>
    refine .number hne hdigit fun c hc => ?_
    rcases hhead c hc with hsame | hblank | rfl
    · exact hrest c hsame
    · by_contra hdigit
      have hclass := isBlank_eq_false_of_class (p := Char.isDigit) (by simpa using hdigit)
        (by decide)
      rw [hclass] at hblank
      exact Bool.noConfusion hblank
    · decide
  | blockString _ hbody => exact .blockString _ hbody
  | string hbody hopen =>
    refine .string hbody ?_
    cases hbody with
    | nil =>
      -- two quotes in a row: what stands behind them is no third one
      rintro ⟨tail, htail⟩
      have hrest : rest'.head? = some '"' := by
        have heq : '"' :: tail = rest' := by simpa [tripleQuote] using htail
        rw [← heq]
        rfl
      rcases hhead _ hrest with hsame | hblank | hhash
      · cases rest with
        | nil => cases hsame
        | cons c rest =>
          obtain rfl := Option.some.inj hsame
          exact hopen ⟨rest, rfl⟩
      · exact absurd hblank (by decide)
      · exact absurd hhash (by decide)
    | plain hquote _ _ _ =>
      rintro ⟨tail, htail⟩
      exact hquote (List.cons.inj (List.cons.inj htail).2).1.symm
    | escape c _ =>
      rintro ⟨tail, htail⟩
      simp [tripleQuote] at htail
  | mark m _ => exact .mark m _

/-- **The cut of a spaced text has the same pieces**, trivia apart.

**Proof sketch.** Induction on the cut of the text. Tokens may stand in front of filler, and a
comment in front of the end of its line; only a comment at the very end of the text may get longer.
-/
lemma Cut.spaced {cs cs' : List Char} {ls : List Lexeme} (hls : Cut cs ls)
    (hclean : ∀ l ∈ ls, l.findings = []) (h : Spaced ls cs') :
    ∃ ms, Cut cs' ms ∧ solid ms = solid ls := by
  induction hls generalizing cs' with
  | nil =>
    cases h with
    | ending hw =>
      obtain ⟨ms, hms, hsolid⟩ := hw.cut .nil
      exact ⟨ms, by simpa using hms, hsolid⟩
  | @cons l rest ls hl hrest ih =>
    replace ih := fun {cs'} => @ih cs' fun m hm => hclean m (List.mem_cons_of_mem l hm)
    cases h with
    | trivia t hspaced =>
      obtain ⟨ms, hms, hsolid⟩ := ih hspaced
      cases hl with
      | blank _ hblank => exact ⟨_, .cons (.blank _ hblank) hms, hsolid⟩
      | comment hbody hend =>
        rcases hend with rfl | hline
        · cases hrest.unique .nil
          cases hspaced with
          | ending hw => exact hw.cut_comment hbody
        · exact ⟨_, .cons (.comment hbody (.inr (hspaced.head_line hrest hline))) hms, hsolid⟩
    | token kind w value faults hf hspaced =>
      obtain ⟨ms, hms, hsolid⟩ := ih hspaced
      obtain rfl : faults = [] := hclean _ (List.mem_cons_self ..)
      obtain ⟨ms', hms', hsolid'⟩ := hf.cut (.cons (hl.spaced (hspaced.head hrest)) hms)
      exact ⟨ms', hms', by rw [hsolid', solid_token, solid_token, hsolid]⟩

end Lexeme

/-! ## The tokens of a spaced text -/

/-- A token without its place. -/
def Token.content (t : Token) : TokenKind × String := (t.kind, t.text)

namespace Lexeme

/-- The token of a lexeme without its place, if the lexeme has one. -/
def content? : Lexeme → Option (TokenKind × String)
  | .token kind _ value _ => some (kind, String.ofList value)
  | _ => none

lemma map_content_tokensOf (p : Position) (ls : List Lexeme) :
    (tokensOf p ls).map Token.content = (solid ls).filterMap content? := by
  induction ls generalizing p with
  | nil => rfl
  | cons l ls ih =>
    rw [tokensOf, List.map_append, ih]
    cases l <;> rfl

/-- The token of a lexeme is among those of the lexemes. -/
lemma exists_mem_tokensOf {kind : TokenKind} {w value : List Char} {faults : List Finding}
    {ls : List Lexeme} (h : .token kind w value faults ∈ ls) (p : Position) :
    ∃ t ∈ tokensOf p ls, t.kind = kind ∧ t.text = String.ofList value := by
  have hcontent : (kind, String.ofList value) ∈ (tokensOf p ls).map Token.content := by
    rw [map_content_tokensOf]
    exact List.mem_filterMap.2 ⟨_, List.mem_filter.2 ⟨h, rfl⟩, rfl⟩
  obtain ⟨t, ht, hvalue⟩ := List.mem_map.1 hcontent
  exact ⟨t, ht, Prod.mk.inj hvalue⟩

/-- Lexemes without faults have no diagnostics. -/
lemma diagnosticsOf_eq_nil {ls : List Lexeme} (h : ∀ l ∈ solid ls, l.findings = [])
    (p : Position) : diagnosticsOf p ls = [] := by
  rw [List.eq_nil_iff_forall_not_mem]
  intro d hd
  obtain ⟨before, l, after, rfl, hmem⟩ := exists_of_mem_diagnosticsOf hd
  obtain ⟨f, hf, -⟩ := List.mem_map.1 hmem
  have hsolid : l ∈ solid (before ++ l :: after) := by
    refine List.mem_filter.2 ⟨by simp, ?_⟩
    cases l with
    | trivia t => cases hf
    | _ => rfl
  rw [h l hsolid] at hf
  cases hf

end Lexeme

/-- Nothing is wrong with the pieces of a script in which nothing is wrong. -/
lemma Lexeme.Cut.findings_eq_nil {script : String} {ls : List Lexeme} (h : Cut script.toList ls)
    (hclean : (tokenize script).diagnostics = []) : ∀ l ∈ ls, l.findings = [] := by
  intro l hl
  rw [List.eq_nil_iff_forall_not_mem]
  intro f hf
  obtain ⟨d, hd, -⟩ := exists_mem_diagnosticsOf hl hf .origin
  rw [← (contents_tokenize h).2, hclean] at hd
  cases hd

/-- `SpacedOut a b`: the script `b` is the script `a` with blank space and comment lines put in
front of any of its tokens, its end included. -/
def SpacedOut (a b : String) : Prop :=
  ∃ ls, Lexeme.Cut a.toList ls ∧ Lexeme.Spaced ls b.toList

/-- **The same tokens are read** in a script that is spaced out, and still nothing is wrong. -/
lemma tokenize_spaced_out {a b : String} (h : SpacedOut a b)
    (hclean : (tokenize a).diagnostics = []) :
    (tokenize b).diagnostics = [] ∧
      (tokenize b).tokens.map Token.content = (tokenize a).tokens.map Token.content := by
  obtain ⟨ls, hls, hspaced⟩ := h
  have hfindings := hls.findings_eq_nil hclean
  obtain ⟨ms, hms, hsolid⟩ := hls.spaced hfindings hspaced
  refine ⟨?_, ?_⟩
  · rw [(contents_tokenize hms).2]
    refine Lexeme.diagnosticsOf_eq_nil (fun l hl => hfindings l ?_) _
    rw [hsolid] at hl
    exact List.mem_of_mem_filter hl
  · rw [(contents_tokenize hms).1, (contents_tokenize hls).1, Lexeme.map_content_tokensOf,
      Lexeme.map_content_tokensOf, hsolid]

/-! ## The findings in a spaced text -/

/-- **Tokens start in the order in which they stand.** -/
lemma start_le_iff {script : String} {i j : Nat} {t u : Token}
    (ht : (tokenize script).stream[i]? = some t) (hu : (tokenize script).stream[j]? = some u) :
    t.range.start.le u.range.start = true ↔ i ≤ j := by
  have hbefore : (tokenize script).stream.Pairwise fun t u =>
      t.range.start.Before u.range.start := by
    have hstops := stream_pairwise script
    rw [Tokenized.stream, List.pairwise_append] at hstops ⊢
    refine ⟨hstops.1.imp_of_mem fun ht _ hle => (before_of_mem_tokens ht).trans_le hle,
      List.pairwise_singleton _ _, fun t ht u hu => ?_⟩
    exact (before_of_mem_tokens ht).trans_le (hstops.2.2 t ht u hu)
  obtain ⟨hi, rfl⟩ := List.getElem?_eq_some_iff.1 ht
  obtain ⟨hj, rfl⟩ := List.getElem?_eq_some_iff.1 hu
  rw [List.pairwise_iff_getElem] at hbefore
  constructor
  · intro hle
    by_contra hlt
    have hback := hbefore j i hj hi (by omega)
    rw [Position.le_iff] at hle
    unfold Position.Before at hback
    omega
  · intro hij
    rcases Nat.lt_or_eq_of_le hij with hlt | rfl
    · exact (hbefore i j hi hj hlt).le
    · rw [Position.le_iff]
      omega

/-- The ranges of tokens that stand at the same place in two streams. -/
def SameIndex (ts us : List Token) (r r' : Range) : Prop :=
  ∃ (i : Nat) (t u : Token), ts[i]? = some t ∧ us[i]? = some u ∧ r = t.range ∧ r' = u.range

/-- Streams with the same contents correspond token by token. -/
lemma forall₂_sameIndex {ts us : List Token}
    (h : us.map Token.content = ts.map Token.content) :
    List.Forall₂ (SameToken (SameIndex ts us)) ts us := by
  have hlength : ts.length = us.length := by simpa using congrArg List.length h.symm
  rw [List.forall₂_iff_get]
  refine ⟨hlength, fun i hi hi' => ?_⟩
  have hcontent : us[i].content = ts[i].content := by
    have hget := congrArg (·[i]?) h
    simpa [hi, hi'] using hget
  obtain ⟨hkind, htext⟩ := Prod.mk.inj hcontent
  exact ⟨hkind.symm, htext.symm, i, ts[i], us[i], List.getElem?_eq_getElem hi,
    List.getElem?_eq_getElem hi', rfl, rfl⟩

/-- Ranges at the same places in the streams of two scripts start in the same order. -/
lemma startsBy_sameIndex {a b : String} {d d' e e' : Diagnostic}
    (hd : SameIndex (tokenize a).stream (tokenize b).stream d.range d'.range)
    (he : SameIndex (tokenize a).stream (tokenize b).stream e.range e'.range) :
    d.startsBy e = d'.startsBy e' := by
  obtain ⟨i, t, t', ht, ht', hrange, hrange'⟩ := hd
  obtain ⟨j, u, u', hu, hu', hother, hother'⟩ := he
  rw [Bool.eq_iff_iff, Diagnostic.startsBy, Diagnostic.startsBy, hrange, hrange', hother, hother',
    start_le_iff ht hu, start_le_iff ht' hu']

/-- **A script that is spaced out has the same findings.** If nothing is wrong with the tokens of
`a`, and `b` is `a` with blank space and comment lines put in front of tokens, then nothing is wrong
with the tokens of `b`; they have the same kinds and texts; and the diagnostics of the two scripts
are equally many, agree one by one in severity and message, and are about tokens with the same
index.

**Proof sketch.** The two streams correspond token by token, so the two checks make corresponding
reports. Reports on tokens with the same indices start in the same order in both scripts, so they
are sorted alike. -/
theorem lint_spaced_out {a b : String} (h : SpacedOut a b)
    (hclean : (tokenize a).diagnostics = []) :
    (tokenize b).diagnostics = [] ∧
      (tokenize b).stream.map Token.content = (tokenize a).stream.map Token.content ∧
      List.Forall₂ (fun d e => d.severity = e.severity ∧ d.message = e.message ∧
          SameIndex (tokenize a).stream (tokenize b).stream d.range e.range)
        (lint a) (lint b) := by
  obtain ⟨hdiagnostics, htokens⟩ := tokenize_spaced_out h hclean
  have hstream : (tokenize b).stream.map Token.content = (tokenize a).stream.map Token.content := by
    rw [Tokenized.stream, Tokenized.stream, List.map_append, List.map_append, htokens]
    rfl
  refine ⟨hdiagnostics, hstream, ?_⟩
  -- the ends correspond as the last tokens of the two streams
  have hsame := forall₂_sameIndex hstream
  have hlength : (tokenize a).tokens.length = (tokenize b).tokens.length := by
    simpa using congrArg List.length htokens.symm
  have hahead := List.forall₂_take (tokenize a).tokens.length hsame
  have heof := List.forall₂_drop (tokenize a).tokens.length hsame
  rw [Tokenized.stream, Tokenized.stream, List.take_left, hlength, List.take_left] at hahead
  rw [Tokenized.stream, Tokenized.stream, List.drop_left, hlength, List.drop_left] at heof
  have hstart : Relocated (SameIndex (tokenize a).stream (tokenize b).stream) [] [] []
      (.ofTokenized (tokenize a)) (.ofTokenized (tokenize b)) := by
    refine ⟨hahead, (List.forall₂_cons.1 heof).1, ⟨[], [], ?_, ?_, .nil⟩, ⟨[], [], rfl, rfl, .nil⟩,
      rfl⟩
    · rw [Checker.ofTokenized, Checker.start, hclean]
      rfl
    · rw [Checker.ofTokenized, Checker.start, hdiagnostics]
      rfl
  obtain ⟨new, new', hnew, hnew', hreports⟩ := (Check.finish_relocated hstart).reports
  rw [lint, lint, Checker.diagnostics, Checker.diagnostics, Checker.reported, Checker.reported,
    hnew, hnew', List.append_nil, List.append_nil]
  have hsorted := Diagnostic.forall₂_sort (List.forall₂_reverse_iff.2 hreports)
    fun hd he => startsBy_sameIndex hd.2 he.2
  refine hsorted.imp fun d e hde => ⟨?_, ?_, hde.2⟩
  · rw [Diagnostic.severity, Diagnostic.severity, hde.1]
  · rw [Diagnostic.message, Diagnostic.message, hde.1]

/-- Behind a comment line, and before the end of its own, an unfinished `halt` lacks the same. -/
theorem lint_spaced_out_halt :
    List.Forall₂ (fun d e => d.severity = e.severity ∧ d.message = e.message ∧
        SameIndex (tokenize "halt").stream (tokenize "# stop\nhalt\n").stream d.range e.range)
      (lint "halt") (lint "# stop\nhalt\n") := by
  have hsegment : Lexeme.Segment
      (.token .identifier ['h', 'a', 'l', 't'] ['h', 'a', 'l', 't'] []) [] :=
    .identifier (by decide) (List.all_eq_true.1 (by decide)) (by simp)
  have hcut : Lexeme.Cut "halt".toList _ := .cons hsegment .nil
  have hfiller : Lexeme.Filler ('#' :: ([' ', 's', 't', 'o', 'p'] ++ '\n' :: [])) :=
    .comment (by simp) .nil
  have hline : Lexeme.Filler ['\n'] := .blank (by decide) .nil
  have hspaced : Lexeme.Spaced _ "# stop\nhalt\n".toList :=
    .token .identifier ['h', 'a', 'l', 't'] ['h', 'a', 'l', 't'] [] hfiller (.ending hline)
  exact (lint_spaced_out ⟨_, hcut, hspaced⟩ (by decide +kernel)).2.2

end WorkflowLint
