import WorkflowLint.Proofs.Breakdown
import WorkflowLint.Proofs.Utf8
import WorkflowLint.Proofs.Wording

/-!
# Reports line by line

A report has a line per diagnostic only as far as every message is one line. Messages are: names,
keys and single characters never break a line. But two of them quote a literal as it is, the label
of a tiebreaker and the path of a source file, and a literal may well go over several lines. It is
these two, and nothing else, that put more line feeds into a report than it has diagnostics.

## Main definitions

* `WorkflowLint.Finding.literal?` — the literal that a message quotes.
* `WorkflowLint.Report.blocks` — what a report for editors says.
* `WorkflowLint.Report.quoted` — the literals that the messages in a report quote.

## Main results

* `WorkflowLint.newlines_message_of_mem_lint` — a message has the line feeds of the literal it
  quotes.
* `WorkflowLint.Report.OnScripts.newlines_report` — the line feeds of a report.
* `WorkflowLint.Command.runLint_lines` — when the lines of a report are its diagnostics.
* `WorkflowLint.lint_message_two_lines` — a tiebreaker that goes over two lines.
-/

set_option autoImplicit false

namespace WorkflowLint

/-! ## Line feeds -/

lemma newlines_append (s s' : String) : newlines (s ++ s') = newlines s + newlines s' := by
  rw [newlines, String.toList_append, List.count_append, newlines, newlines]

lemma newlines_eq_zero_iff {s : String} : newlines s = 0 ↔ IsLine s := List.count_eq_zero

lemma IsLine.newlines_eq {s : String} (h : IsLine s) : newlines s = 0 := newlines_eq_zero_iff.2 h

/-- A text that is quoted in a line. -/
lemma newlines_quote {front back : String} (hfront : IsLine front) (hback : IsLine back)
    (s : String) : newlines (front ++ s ++ back) = newlines s := by
  rw [newlines_append, newlines_append, hfront.newlines_eq, hback.newlines_eq, Nat.zero_add,
    Nat.add_zero]

lemma newlines_join (ss : List String) : newlines (String.join ss) = (ss.map newlines).sum := by
  rw [newlines, String.toList_join, List.count_flatMap]
  rfl

lemma newlines_getD_eq_zero_iff {literal? : Option String} :
    newlines (literal?.getD "") = 0 ↔ ∀ x ∈ literal?, IsLine x := by
  cases literal? with
  | none => simp [newlines]
  | some x => simp [newlines_eq_zero_iff]

/-! ## Messages -/

/-- The literal that a message quotes, if it quotes one. -/
def Finding.literal? : Finding → Option String
  | .unmatchedTiebreaker label => some label
  | .duplicateSourcePath path => some path
  | _ => none

lemma isLine_kindName (kind : SymbolKind) : IsLine kind.name := by
  cases kind <;> exact .ofList (by rfl)

lemma isLine_phrase {site : ReferenceSite} (h : ∀ key, site = .attachment key → key ∈ words) :
    IsLine site.phrase := by
  cases site with
  | attachment key =>
    exact (IsLine.append (.ofList (by rfl)) (isLine_of_mem_words _ (h key rfl))).append
      (.ofList (by rfl))
  | _ => exact .ofList (by rfl)

/-- **What is said about a token has the line feeds of the literal it quotes**, if names are
lines. -/
lemma Says.newlines_message {t : Token} (hname : t.kind = .identifier → IsLine t.text)
    {f : Finding} (h : Says t f) : newlines f.message = newlines (f.literal?.getD "") := by
  have hquote {front back : String} (hfront : IsLine front) (hback : IsLine back) :
      t.kind = .identifier → newlines (front ++ t.text ++ back) = 0 := fun hkind =>
    (newlines_quote hfront hback t.text).trans (hname hkind).newlines_eq
  have hword {front key back : String} (hfront : IsLine front) (hback : IsLine back) :
      key ∈ words → newlines (front ++ key ++ back) = 0 := fun hkey =>
    (newlines_quote hfront hback key).trans (isLine_of_mem_words key hkey).newlines_eq
  cases h with
  | expected hwhat =>
    exact (newlines_quote (.ofList (by rfl)) (.ofList (by rfl)) _).trans hwhat.newlines_eq
  | unknownJulietKey hkind => exact hquote (.ofList (by rfl)) (.ofList (by rfl)) hkind
  | duplicateDefinition kind hkind =>
    refine hquote ?_ (.ofList (by rfl)) hkind
    exact (IsLine.append (.ofList (by rfl)) (isLine_kindName kind)).append (.ofList (by rfl))
  | unmatchedTiebreaker _ => exact newlines_quote (.ofList (by rfl)) (.ofList (by rfl)) _
  | missingCadenceKey hkey => exact hword (.ofList (by rfl)) (.ofList (by rfl)) hkey
  | nonPositiveCount hkey => exact hword (.ofList (by rfl)) (.ofList (by rfl)) hkey
  | unknownCadenceKey hkind => exact hquote (.ofList (by rfl)) (.ofList (by rfl)) hkind
  | duplicateSourcePath _ => exact newlines_quote (.ofList (by rfl)) (.ofList (by rfl)) _
  | duplicateAttachment hkind => exact hquote (.ofList (by rfl)) (.ofList (by rfl)) hkind
  | unknownAttachmentKey hkind => exact hquote (.ofList (by rfl)) (.ofList (by rfl)) hkind
  | unresolved kind hsite hkind =>
    have hfront : IsLine ("Unknown " ++ kind.name ++ " '") :=
      (IsLine.append (.ofList (by rfl)) (isLine_kindName kind)).append (.ofList (by rfl))
    have hnamed : IsLine ("Unknown " ++ kind.name ++ " '" ++ t.text ++ "' ") :=
      (hfront.append (hname hkind)).append (.ofList (by rfl))
    have hstop : IsLine "." := .ofList (by rfl)
    exact ((hnamed.append (isLine_phrase hsite)).append hstop).newlines_eq
  | duplicateJuliet => exact IsLine.newlines_eq (.ofList (by rfl))
  | nonPositivePoints => exact IsLine.newlines_eq (.ofList (by rfl))
  | emptyMeaning => exact IsLine.newlines_eq (.ofList (by rfl))
  | nonPositiveKeep => exact IsLine.newlines_eq (.ofList (by rfl))
  | unsupportedExtendTarget => exact IsLine.newlines_eq (.ofList (by rfl))

/-! ## Texts -/

namespace Lexeme

/-- What is wrong with a segment is said in a line. -/
lemma Segment.isLine_message {l : Lexeme} {rest : List Char} (h : Segment l rest) {f : Finding}
    (hf : f ∈ l.findings) : IsLine f.message ∧ f.literal? = none := by
  have hstring : IsLine Finding.unterminatedString.message := .ofList (by rfl)
  cases h with
  | openBlockString _ =>
    rw [List.mem_singleton.1 hf]
    exact ⟨.ofList (by rfl), rfl⟩
  | brokenString _ _ =>
    rcases List.mem_cons.1 hf with rfl | hf
    · exact ⟨.ofList (by rfl), rfl⟩
    · rw [List.mem_singleton.1 hf]
      exact ⟨hstring, rfl⟩
  | openString _ =>
    rw [List.mem_singleton.1 hf]
    exact ⟨hstring, rfl⟩
  | openEscape _ =>
    rw [List.mem_singleton.1 hf]
    exact ⟨hstring, rfl⟩
  | @unexpected c _ hblank _ _ _ _ _ =>
    rw [List.mem_singleton.1 hf]
    have hc : c ≠ '\n' := by
      rintro rfl
      exact absurd hblank (by decide)
    have hchar : IsLine (String.singleton c) := by simpa [IsLine] using hc.symm
    exact ⟨(IsLine.append (.ofList (by rfl)) hchar).append (.ofList (by rfl)), rfl⟩
  | _ => cases hf

/-- A token that is no literal is its text, and that is one line. -/
lemma Segment.newline_not_mem_of_kind {kind : TokenKind} {text value rest : List Char}
    {faults : List Finding} (h : Segment (.token kind text value faults) rest)
    (hkind : kind ∉ TokenKind.literals) : value = text ∧ '\n' ∉ text := by
  cases h with
  | @identifier c cs _ hc hcs _ =>
    have hpart : ∀ d ∈ c :: cs, isNamePart d = true :=
      List.forall_mem_cons.2 ⟨by simp [isNamePart, Char.isAlphanum, hc], hcs⟩
    exact ⟨rfl, fun hmem => ne_of_class (hpart _ hmem) (by decide) rfl⟩
  | number _ hdigit _ =>
    exact ⟨rfl, fun hmem => ne_of_class (hdigit _ hmem) (by decide) rfl⟩
  | mark m _ =>
    refine ⟨rfl, ?_⟩
    rw [List.mem_singleton]
    cases m <;> decide
  | _ => exact absurd (by decide) hkind

end Lexeme

/-- A diagnostic of the lexer is one line. -/
lemma isLine_of_mem_diagnostics {script : String} {d : Diagnostic}
    (h : d ∈ (tokenize script).diagnostics) :
    IsLine d.message ∧ d.finding.literal? = none := by
  obtain ⟨ls, hls⟩ := Lexeme.exists_cut script.toList
  rw [(contents_tokenize hls).2] at h
  obtain ⟨before, l, after, rfl, hd⟩ := Lexeme.exists_of_mem_diagnosticsOf h
  obtain ⟨rest, hl⟩ := hls.segment_of_mem (l := l) (by simp)
  obtain ⟨f, hf, rfl⟩ := List.mem_map.1 hd
  exact hl.isLine_message hf

/-- A token in a script that is no literal is one line. -/
lemma isLine_of_mem_stream {script : String} {t : Token} (h : t ∈ (tokenize script).stream)
    (hkind : t.kind ∉ TokenKind.literals) : IsLine t.text := by
  rw [Tokenized.stream, List.mem_append, List.mem_singleton] at h
  rcases h with h | rfl
  · obtain ⟨ls, hls⟩ := Lexeme.exists_cut script.toList
    rw [(contents_tokenize hls).1] at h
    obtain ⟨before, l, after, rfl, ht⟩ := Lexeme.exists_of_mem_tokensOf h
    obtain ⟨rest, hl⟩ := hls.segment_of_mem (l := l) (by simp)
    cases l with
    | token kind text value faults =>
      obtain rfl := Option.some.inj ht
      obtain ⟨rfl, hline⟩ := hl.newline_not_mem_of_kind hkind
      rwa [IsLine, String.toList_ofList]
    | trivia text => cases ht
    | unexpected c => cases ht
  · exact .ofList (by rfl)

/-- **A message has the line feeds of the literal it quotes.** -/
lemma newlines_message_of_mem_lint {script : String} {d : Diagnostic} (h : d ∈ lint script) :
    newlines d.message = newlines (d.finding.literal?.getD "") := by
  rcases says_of_mem_lint h with hd | ⟨t, ht, -, hsays⟩
  · obtain ⟨hline, hnone⟩ := isLine_of_mem_diagnostics hd
    rw [hline.newlines_eq, hnone]
    rfl
  · exact hsays.newlines_message fun hkind => isLine_of_mem_stream ht (by rw [hkind]; decide)

/-- **A message is one line** if and only if the literal is that it quotes. -/
lemma isLine_message_iff {script : String} {d : Diagnostic} (h : d ∈ lint script) :
    IsLine d.message ↔ ∀ x ∈ d.finding.literal?, IsLine x := by
  rw [← newlines_eq_zero_iff, newlines_message_of_mem_lint h, newlines_getD_eq_zero_iff]

/-- The literal that a message quotes is a literal of the script, in the place of the diagnostic. -/
lemma exists_literal_of_mem_lint {script : String} {d : Diagnostic} (h : d ∈ lint script)
    {x : String} (hx : x ∈ d.finding.literal?) :
    ∃ t ∈ (tokenize script).tokens,
      t.kind ∈ TokenKind.literals ∧ t.text = x ∧ d.range = t.range := by
  have hliteral {t : Token} (ht : t ∈ (tokenize script).stream)
      (hkind : t.kind ∈ TokenKind.literals) : t ∈ (tokenize script).tokens := by
    rw [Tokenized.stream, List.mem_append, List.mem_singleton] at ht
    rcases ht with ht | rfl
    · exact ht
    · cases hkind with
      | tail _ h => cases h with
        | tail _ h => cases h
  rcases says_of_mem_lint h with hd | ⟨t, ht, hrange, hsays⟩
  · rw [(isLine_of_mem_diagnostics hd).2] at hx
    cases hx
  · obtain ⟨finding, range⟩ := d
    cases hsays with
    | unmatchedTiebreaker hkind =>
      exact ⟨t, hliteral ht hkind, hkind, Option.some.inj hx, hrange⟩
    | duplicateSourcePath hkind =>
      have hkind' : t.kind ∈ TokenKind.literals := by rw [hkind]; exact List.mem_cons_self
      exact ⟨t, hliteral ht hkind', hkind', Option.some.inj hx, hrange⟩
    | _ => cases hx

/-! ## Control sequences -/

namespace Text

/-- What is left behind a control sequence has all its line feeds. -/
lemma count_afterAnsi? {cs rest : List Char} (h : afterAnsi? cs = some rest) :
    rest.count '\n' = cs.count '\n' := by
  have hparameters : (cs.takeWhile isAnsiParameter).count '\n' = 0 :=
    List.count_eq_zero.2 fun hmem => absurd (List.mem_takeWhile_imp hmem) (by decide)
  have hcut : cs.count '\n' = (cs.dropWhile isAnsiParameter).count '\n' := by
    conv_lhs => rw [← List.takeWhile_append_dropWhile (p := isAnsiParameter) (l := cs)]
    rw [List.count_append, hparameters, Nat.zero_add]
  rw [hcut]
  unfold afterAnsi? at h
  split at h
  · rename_i c rest' hdrop
    split at h
    · rename_i hletter
      obtain rfl := Option.some.inj h
      have hc : c ≠ '\n' := by
        rintro rfl
        exact absurd hletter (by decide)
      rw [hdrop, List.count_cons_of_ne hc]
    · cases h
  · cases h

/-- **Control sequences hold no line feeds.** -/
lemma count_stripAnsiChars (cs : List Char) : (stripAnsiChars cs).count '\n' = cs.count '\n' := by
  fun_induction stripAnsiChars cs with
  | case1 => rfl
  | case2 cs rest hrest _ ih =>
    rw [ih, count_afterAnsi? hrest, List.count_cons_of_ne (by decide),
      List.count_cons_of_ne (by decide)]
  | case3 cs _ ih =>
    rw [List.count_cons_of_ne (by decide), ih]
    exact (List.count_cons_of_ne (by decide)).symm
  | case4 c cs _ ih => rw [List.count_cons, List.count_cons, ih]

lemma newlines_stripAnsi (s : String) : newlines (stripAnsi s) = newlines s := by
  rw [newlines, stripAnsi, String.toList_ofList, count_stripAnsiChars, newlines]

end Text

/-! ## Reports -/

/-- The place of a diagnostic is told in a line. -/
lemma isLine_humanText (p : Position) : IsLine p.humanText :=
  have hnumber (n : Int) : IsLine (toString n) :=
    Report.not_mem_toString (by decide) (by decide) n
  ((hnumber _).append (.ofList (by rfl))).append (hnumber _)

lemma isLine_severityName (severity : Severity) : IsLine severity.name := by
  cases severity <;> exact .ofList (by rfl)

/-- A formatted diagnostic has the line feeds of its path and of its message. -/
lemma Diagnostic.newlines_format (d : Diagnostic) (path : String) :
    newlines (d.format (some path)) = newlines path + newlines d.message := by
  have hcolon : newlines ":" = 0 := IsLine.newlines_eq (.ofList (by rfl))
  have hblank : newlines ": " = 0 := IsLine.newlines_eq (.ofList (by rfl))
  simp only [Diagnostic.format, newlines_append, hcolon, hblank,
    (isLine_humanText _).newlines_eq, (isLine_severityName _).newlines_eq, Nat.add_zero]

/-- The totals are told in a line. -/
lemma LintSummary.isLine_format (s : LintSummary) : IsLine s.format := by
  have hnumber (n : Int) : newlines (toString n) = 0 :=
    IsLine.newlines_eq (Report.not_mem_toString (by decide) (by decide) n)
  rw [← newlines_eq_zero_iff]
  delta LintSummary.format
  simp only [newlines_append, hnumber]
  rfl

namespace Report

/-- What a report for editors says: each diagnostic, and the totals. -/
def blocks (rs : List LintResult) : List String :=
  (listed rs).map (fun e => Text.stripAnsi (e.2.format (some e.1))) ++
    [(LintSummary.ofResults rs).format]

/-- Blocks, each ended by a line feed. -/
def terminated (bs : List String) : String := String.join (bs.map (· ++ "\n"))

lemma render_vscode (rs : List LintResult) : render .vscode rs = terminated (blocks rs) := by
  rw [(agree_render rs).vscode, terminated, blocks, List.map_append, String.join_append,
    List.map_map, String.append_assoc]
  rfl

lemma newlines_terminated (bs : List String) :
    newlines (terminated bs) = bs.length + (bs.map newlines).sum := by
  induction bs with
  | nil => rfl
  | cons b bs ih =>
    have hend : newlines "\n" = 1 := by decide
    rw [terminated, newlines_join] at ih ⊢
    simp only [List.map_cons, List.sum_cons, List.length_cons, newlines_append, hend, ih]
    omega

/-- The literals that the messages in a report quote. -/
def quoted (rs : List LintResult) : List String :=
  (listed rs).filterMap fun e => e.2.finding.literal?

/-- A report on scripts, the paths of which are lines. -/
structure OnScripts (rs : List LintResult) : Prop where
  path : ∀ r ∈ rs, IsLine r.path
  script : ∀ r ∈ rs, ∃ script, r.diagnostics = lint script

/-- A block has the line feeds of the literal that its message quotes. -/
lemma OnScripts.newlines_block {rs : List LintResult} (h : OnScripts rs) {e : String × Diagnostic}
    (he : e ∈ listed rs) : newlines (Text.stripAnsi (e.2.format (some e.1))) =
      newlines (e.2.finding.literal?.getD "") := by
  obtain ⟨r, hr, he⟩ := List.mem_flatMap.1 he
  obtain ⟨d, hd, rfl⟩ := List.mem_map.1 he
  obtain ⟨script, hscript⟩ := h.script r hr
  rw [hscript] at hd
  rw [Text.newlines_stripAnsi, Diagnostic.newlines_format, (h.path r hr).newlines_eq, Nat.zero_add,
    newlines_message_of_mem_lint hd]

/-- **The blocks of a report are lines** if the literals are that it quotes. -/
lemma OnScripts.forall_isLine_iff {rs : List LintResult} (h : OnScripts rs) :
    (∀ b ∈ blocks rs, IsLine b) ↔ ∀ x ∈ quoted rs, IsLine x := by
  have hblock : ∀ e ∈ listed rs, (IsLine (Text.stripAnsi (e.2.format (some e.1))) ↔
      ∀ x ∈ e.2.finding.literal?, IsLine x) := by
    intro e he
    rw [← newlines_eq_zero_iff, h.newlines_block he, newlines_getD_eq_zero_iff]
  simp only [blocks, List.forall_mem_append, List.forall_mem_map, List.forall_mem_singleton,
    LintSummary.isLine_format, and_true, quoted, List.mem_filterMap]
  constructor
  · rintro hlines x ⟨e, he, hx⟩
    exact (hblock e he).1 (hlines e he) x hx
  · exact fun hquoted e he => (hblock e he).2 fun x hx => hquoted x ⟨e, he, hx⟩

/-- **The line feeds of a report**: one for each diagnostic, one for the totals, and those of the
literals that it quotes. -/
lemma OnScripts.newlines_report {rs : List LintResult} (h : OnScripts rs) :
    newlines (terminated (blocks rs)) =
      (listed rs).length + 1 + ((quoted rs).map newlines).sum := by
  have hblocks : ((listed rs).map fun e => newlines (Text.stripAnsi (e.2.format (some e.1)))).sum =
      ((listed rs).map fun e => newlines (e.2.finding.literal?.getD "")).sum :=
    congrArg List.sum (List.map_congr_left fun e he => h.newlines_block he)
  have hquoted (es : List (String × Diagnostic)) :
      (es.map fun e => newlines (e.2.finding.literal?.getD "")).sum =
        ((es.filterMap fun e => e.2.finding.literal?).map newlines).sum := by
    induction es with
    | nil => rfl
    | cons e es ih =>
      rw [List.map_cons, List.sum_cons, ih, List.filterMap_cons]
      cases e.2.finding.literal? with
      | none => exact Nat.zero_add _
      | some x => rfl
  rw [newlines_terminated, quoted, ← hquoted, ← hblocks, blocks, List.map_append, List.sum_append,
    List.map_map, List.map_singleton, (LintSummary.isLine_format _).newlines_eq]
  simp [Function.comp_def]

end Report

/-! ## Runs -/

/-- Each result is for a file. -/
lemma FileSet.exists_lintFile_of_mem {t : FileTree} {files : List Path} {rs : List LintResult}
    (h : lintFiles t files = .ok rs) : ∀ r ∈ rs, ∃ q, lintFile t q = .ok r := by
  rw [lintFiles] at h
  induction files generalizing rs with
  | nil =>
    rw [List.mapM_nil, return_eq_ok_iff] at h
    subst h
    simp
  | cons q files ih =>
    simp only [List.mapM_cons, bind_eq_ok_iff, return_eq_ok_iff] at h
    obtain ⟨r, hr, rs, hrs, rfl⟩ := h
    exact List.forall_mem_cons.2 ⟨⟨q, hr⟩, ih hrs⟩

namespace Command

variable {t : FileTree} {o : LintOptions}

/-- The results of a run are the diagnostics of scripts. -/
lemma exists_script_of_results {format : OutputFormat} {rs : List LintResult}
    (h : results t o = .ok (format, rs)) : ∀ r ∈ rs, ∃ script, r.diagnostics = lint script := by
  simp only [results, bind_eq_ok_iff, return_eq_ok_iff, Prod.mk.injEq] at h
  obtain ⟨-, -, s, -, files, -, rs', hrs, -, rfl⟩ := h
  intro r hr
  have hfiles : FileSet.lintFiles t files = .ok rs' := by
    cases hfiles : FileSet.lintFiles t files with
    | error p => simp [hfiles, Except.mapError] at hrs
    | ok rs => simpa [hfiles, Except.mapError] using hrs
  obtain ⟨q, hq⟩ := FileSet.exists_lintFile_of_mem hfiles r hr
  obtain ⟨script, -, rfl⟩ := FileSet.exists_text_of_lintFile hq
  exact ⟨script, rfl⟩

/-- **When the lines of a report are its diagnostics.**

* A message has the line feeds of the literal that it quotes, so it is one line if and only if the
  literal is, or there is none. The literal is the text of a token of the script, in the place of
  the diagnostic.
* If the paths of the files are lines then a report for editors consists of a block for each
  diagnostic in turn, and a last one for the totals, each ended by a line feed. There are no other
  line feeds than those of the quoted literals; the blocks are lines if and only if these literals
  are.

**Proof sketch.** All that is said about a token is said in fixed words, its name, or its literal
(`says_of_mem_lint`); what a lexeme is faulted for is said in fixed words and a character that is
not blank. A control sequence that is taken out of a block has no line feeds
(`Text.count_stripAnsiChars`). -/
theorem runLint_lines (script : String) (t : FileTree) (o : LintOptions) (rs : List LintResult) :
    (∀ d ∈ lint script,
      newlines d.message = newlines (d.finding.literal?.getD "") ∧
      (IsLine d.message ↔ ∀ x ∈ d.finding.literal?, IsLine x) ∧
      ∀ x ∈ d.finding.literal?, ∃ t ∈ (tokenize script).tokens,
        t.kind ∈ TokenKind.literals ∧ t.text = x ∧ d.range = t.range) ∧
    (results t o = .ok (.vscode, rs) → (∀ r ∈ rs, IsLine r.path) →
      (∃ code err, runLint t o = .exit code (Report.terminated (Report.blocks rs)) err) ∧
      (Report.blocks rs).length = (LintSummary.ofResults rs).issues + 1 ∧
      newlines (Report.terminated (Report.blocks rs)) =
        (LintSummary.ofResults rs).issues + 1 + ((Report.quoted rs).map newlines).sum ∧
      ((∀ b ∈ Report.blocks rs, IsLine b) ↔ ∀ x ∈ Report.quoted rs, IsLine x)) := by
  refine ⟨fun d hd => ⟨newlines_message_of_mem_lint hd, isLine_message_iff hd, fun x hx =>
    exists_literal_of_mem_lint hd hx⟩, fun hresults hpaths => ?_⟩
  have hscripts : Report.OnScripts rs := ⟨hpaths, exists_script_of_results hresults⟩
  have hissues := (Report.counts_ofResults rs).issues
  refine ⟨?_, ?_, ?_, hscripts.forall_isLine_iff⟩
  · simp only [runLint, hresults, Report.render_vscode]
    exact ⟨_, _, rfl⟩
  · rw [hissues, Report.blocks, List.length_append, List.length_map]
    rfl
  · rw [hscripts.newlines_report, hissues]
    push_cast
    rfl

/-- A report with a single diagnostic, whose tiebreaker goes over two lines: it is three lines long,
not two. -/
theorem runLint_lines_two_line_tiebreaker :
    let script := "rubric R \x7b tiebreakers [\"\"\"a\nb\"\"\"]; \x7d"
    let t : FileTree := ⟨.directory [("a.jls", .file script.toUTF8.data.toList)], []⟩
    let o := (LintOptions.pattern "a.jls").withFormat .vscode
    ∃ rs code out err, results t o = .ok (.vscode, rs) ∧ (∀ r ∈ rs, IsLine r.path) ∧
      runLint t o = .exit code out err ∧ (LintSummary.ofResults rs).issues = 1 ∧
      Report.quoted rs = ["a\nb"] ∧ newlines out = 3 := by
  intro script t o
  have hfile : HasFile t "a.jls" :=
    ⟨nofun, by decide +kernel, by simp, by decide +kernel, _, script.toUTF8.data.toList, rfl,
      by decide +kernel, rfl⟩
  have hsize : (Path.mk .root ["a.jls"]).text.utf8ByteSize < FileTree.pathLimit := by
    decide +kernel
  have hread : t.read ⟨.root, ["a.jls"]⟩ = .ok script.toUTF8.data.toList :=
    FileTree.read_of_descend? (by decide +kernel) hsize rfl
  have hscript : FileSet.readScript t ⟨.root, ["a.jls"]⟩ = .ok script := by
    rw [FileSet.readScript, hread]
    simp only [Text.Utf8.decodeLossy_toUTF8]
    exact congrArg Except.ok (by decide +kernel)
  have hpath : (Path.mk .root (t.workingDirectory ++ ["a.jls"])).text = "/a.jls" := by
    decide +kernel
  have hresults : results t o = .ok (.vscode, [⟨"/a.jls", lint script⟩]) := by
    rw [results_withFormat, hfile.findings_eq hscript, hpath]
    rfl
  have hpaths : ∀ r ∈ [(⟨"/a.jls", lint script⟩ : LintResult)], IsLine r.path :=
    List.forall_mem_singleton.2 (.ofList (by rfl))
  have hquoted : Report.quoted [⟨"/a.jls", lint script⟩] = ["a\nb"] := by decide +kernel
  have hissues : (LintSummary.ofResults [⟨"/a.jls", lint script⟩]).issues = 1 := by decide +kernel
  obtain ⟨⟨code, err, hrun⟩, -, hnewlines, -⟩ := (runLint_lines script t o _).2 hresults hpaths
  refine ⟨_, code, _, err, hresults, hpaths, hrun, hissues, hquoted, ?_⟩
  rw [hissues, hquoted, show (["a\nb"].map newlines).sum = 1 by decide] at hnewlines
  exact Int.ofNat.inj hnewlines

end Command

/-- **A tiebreaker that goes over two lines** is quoted over two lines. -/
theorem lint_message_two_lines :
    ∃ d ∈ lint "rubric R \x7b tiebreakers [\"\"\"a\nb\"\"\"]; \x7d", ¬ IsLine d.message := by
  decide +kernel

end WorkflowLint
