import WorkflowLint.Editor
import WorkflowLint.Proofs.Respelling
import WorkflowLint.Proofs.Spacing
import WorkflowLint.Proofs.Utf8
import WorkflowLint.Proofs.Walk

/-!
# Files and documents

A script reaches the linter as a file or as a document of an editor. A document is linted as it was
sent; the line ends of a file are unified when it is read. What is found in both is the same as long
as carriage returns do nothing but end lines. Such a carriage return stands directly in front of a
line feed, where no token starts or ends, and its column is forgotten at once. Inside a block string
it is part of a text, which then has another spelling in the file.

## Main definitions

* `WorkflowLint.Text.returnsPaired` — is every carriage return followed by a line feed?
* `WorkflowLint.Text.dropReturns` — a text without its carriage returns.
* `WorkflowLint.ReturnsEndLines` — carriage returns only end lines.
* `WorkflowLint.Position.Agree` — two places that are the same, or will be behind a line feed.

## Main results

* `WorkflowLint.Lexeme.Cut.withoutReturns` — such a text is read alike without its carriage returns.
* `WorkflowLint.lint_unifyNewlines` — the same is found, up to the spelling of block strings.
* `WorkflowLint.lintFile_eq_published` — a file and a document with the same text.
-/

set_option autoImplicit false

namespace WorkflowLint

/-! ## Carriage returns -/

namespace Text

/-- Is every carriage return directly followed by a line feed? -/
def returnsPaired : List Char → Bool
  | [] => true
  | c :: cs => (c != '\r' || cs.head? == some '\n') && returnsPaired cs

/-- The text without its carriage returns. -/
def withoutReturns (cs : List Char) : List Char := cs.filter (· != '\r')

/-- The text without its carriage returns. -/
def dropReturns (s : String) : String := String.ofList (withoutReturns s.toList)

@[simp] lemma withoutReturns_append (cs ds : List Char) :
    withoutReturns (cs ++ ds) = withoutReturns cs ++ withoutReturns ds :=
  List.filter_append ..

lemma withoutReturns_of_not_mem {cs : List Char} (h : '\r' ∉ cs) : withoutReturns cs = cs := by
  refine List.filter_eq_self.2 fun c hc => ?_
  simp only [bne_iff_ne, ne_eq]
  rintro rfl
  exact h hc

lemma withoutReturns_cons_of_ne {c : Char} (h : c ≠ '\r') (cs : List Char) :
    withoutReturns (c :: cs) = c :: withoutReturns cs :=
  List.filter_cons_of_pos (by simpa using h)

lemma returnsPaired_of_not_mem {cs : List Char} (h : '\r' ∉ cs) : returnsPaired cs = true := by
  induction cs with
  | nil => rfl
  | cons c cs ih =>
    rw [List.mem_cons, not_or] at h
    simp [returnsPaired, ih h.2, Ne.symm h.1]

/-- A text is cut in front of anything but a line feed without tearing pairs apart. -/
lemma returnsPaired_append {cs ds : List Char} (h : ds.head? ≠ some '\n') :
    returnsPaired (cs ++ ds) = (returnsPaired cs && returnsPaired ds) := by
  induction cs with
  | nil => rfl
  | cons c cs ih =>
    have hhead : ((cs ++ ds).head? == some '\n') = (cs.head? == some '\n') := by
      cases cs with
      | nil => simpa using h
      | cons d cs => rfl
    rw [List.cons_append, returnsPaired, returnsPaired, ih, hhead, Bool.and_assoc]

lemma returnsPaired_of_append (cs : List Char) {ds : List Char}
    (h : returnsPaired (cs ++ ds) = true) :
    returnsPaired ds = true := by
  induction cs with
  | nil => exact h
  | cons c cs ih =>
    rw [List.cons_append, returnsPaired, Bool.and_eq_true] at h
    exact ih h.2

/-- What follows a carriage return. -/
lemma head?_of_returnsPaired {cs : List Char} (h : returnsPaired ('\r' :: cs) = true) :
    cs.head? = some '\n' := by
  simp only [returnsPaired, bne_self_eq_false, Bool.false_or, Bool.and_eq_true, beq_iff_eq] at h
  exact h.1

/-- **To unify paired line ends is to drop carriage returns.** -/
lemma unifyLines_eq {cs : List Char} (h : returnsPaired cs = true) :
    unifyLines cs = withoutReturns cs := by
  fun_induction unifyLines cs with
  | case1 cs ih =>
    have hcs : returnsPaired cs = true := returnsPaired_of_append ['\r', '\n'] h
    rw [ih hcs]
    rfl
  | case2 cs hline ih =>
    cases cs with
    | nil => exact absurd (head?_of_returnsPaired h) (by simp)
    | cons c cs =>
      obtain rfl := Option.some.inj (head?_of_returnsPaired h)
      exact absurd rfl (hline cs)
  | case3 c cs _ hreturn ih =>
    have hcs : returnsPaired cs = true := returnsPaired_of_append [c] h
    rw [ih hcs, withoutReturns_cons_of_ne hreturn]
  | case4 => rfl

/-- Behind what may follow a token, something that may follow it is left without carriage
returns. -/
lemma head?_withoutReturns {cs : List Char} (h : returnsPaired cs = true) :
    ∀ c ∈ (withoutReturns cs).head?, cs.head? = some c ∨ c = '\n' := by
  intro c hc
  cases cs with
  | nil => cases hc
  | cons d cs =>
    by_cases hd : d = '\r'
    · subst hd
      cases cs with
      | nil => cases hc
      | cons e cs =>
        obtain rfl := Option.some.inj (head?_of_returnsPaired h)
        exact .inr (Option.some.inj hc).symm
    · rw [withoutReturns_cons_of_ne hd] at hc
      exact .inl hc

/-- No quotes come together where carriage returns are dropped, for a line feed is left there. -/
lemma prefix_of_prefix_withoutReturns {k : Nat} {cs : List Char} (hpaired : returnsPaired cs = true)
    (h : List.replicate k '"' <+: withoutReturns cs) : List.replicate k '"' <+: cs := by
  induction k generalizing cs with
  | zero => exact List.nil_prefix
  | succ k ih =>
    cases cs with
    | nil => exact h
    | cons c cs =>
      by_cases hc : c = '\r'
      · subst hc
        cases cs with
        | nil => exact absurd (head?_of_returnsPaired hpaired) (by simp)
        | cons d cs =>
          obtain rfl := Option.some.inj (head?_of_returnsPaired hpaired)
          exact absurd (List.cons_prefix_cons.1 h).1 (by decide)
      · rw [withoutReturns_cons_of_ne hc, List.replicate_succ, List.cons_prefix_cons] at h
        rw [List.replicate_succ, List.cons_prefix_cons]
        exact ⟨h.1, ih (returnsPaired_of_append [c] hpaired) h.2⟩

lemma infix_of_infix_withoutReturns {k : Nat} {cs : List Char} (hpaired : returnsPaired cs = true)
    (h : List.replicate k '"' <:+: withoutReturns cs) : List.replicate k '"' <:+: cs := by
  induction cs with
  | nil => exact h
  | cons c cs ih =>
    have hcs : returnsPaired cs = true := returnsPaired_of_append [c] hpaired
    by_cases hc : c = '\r'
    · subst hc
      exact List.infix_cons (ih hcs h)
    · rw [withoutReturns_cons_of_ne hc, List.infix_cons_iff] at h
      rcases h with hprefix | hinfix
      · rw [← withoutReturns_cons_of_ne hc] at hprefix
        exact (prefix_of_prefix_withoutReturns hpaired hprefix).isInfix
      · exact List.infix_cons (ih hcs hinfix)

/-! ### Strings -/

lemma dropReturns_append (s s' : String) :
    dropReturns (s ++ s') = dropReturns s ++ dropReturns s' := by
  rw [dropReturns, String.toList_append, withoutReturns_append, String.ofList_append, dropReturns,
    dropReturns]

lemma dropReturns_of_not_mem {s : String} (h : '\r' ∉ s.toList) : dropReturns s = s := by
  rw [dropReturns, withoutReturns_of_not_mem h, String.ofList_toList]

@[simp] lemma dropReturns_dropReturns (s : String) :
    dropReturns (dropReturns s) = dropReturns s := by
  simp [dropReturns, withoutReturns]

/-- A carriage return is blank. -/
lemma allBlank_dropReturns (s : String) : allBlank (dropReturns s) = allBlank s := by
  have hblank : ∀ c, (!(c != '\r') || isBlank c) = isBlank c := by
    intro c
    by_cases hc : c = '\r'
    · subst hc
      decide
    · simp [hc]
  rw [allBlank, dropReturns, String.toList_ofList, withoutReturns, List.all_filter]
  simp only [hblank]
  rfl

end Text

/-! ## Places -/

namespace Position

/-- Two places in front of the text `cs` that are the same, or will be: if a line feed comes next,
their columns do not matter. -/
def Agree (cs : List Char) (p q : Position) : Prop :=
  p = q ∨ p.line = q.line ∧ cs.head? = some '\n'

variable {cs : List Char} {c : Char} {p q : Position}

lemma Agree.eq_of_ne (h : Agree (c :: cs) p q) (hc : c ≠ '\n') : p = q := by
  rcases h with h | ⟨-, hline⟩
  · exact h
  · exact absurd (Option.some.inj hline) hc

lemma Agree.eq_of_nil (h : Agree [] p q) : p = q := by
  rcases h with h | ⟨-, hline⟩
  · exact h
  · cases hline

/-- Places that agree are the same behind the next character. -/
lemma Agree.advance_eq (h : Agree (c :: cs) p q) : p.advance c = q.advance c := by
  rcases h with rfl | ⟨hline, hhead⟩
  · rfl
  · obtain rfl := Option.some.inj hhead
    rw [advance, advance, if_pos rfl, if_pos rfl, hline]

lemma line_advance (hc : c ≠ '\n') : (p.advance c).line = p.line := by
  rw [advance, if_neg hc]

/-- Behind a comment places agree, with the carriage returns and without. -/
lemma agree_after_comment {body rest : List Char} (p : Position) (hbody : ∀ c ∈ body, c ≠ '\n')
    (hpaired : Text.returnsPaired (body ++ rest) = true) :
    Agree rest (p.after body) (p.after (Text.withoutReturns body)) := by
  induction body generalizing p with
  | nil => exact .inl rfl
  | cons c body ih =>
    have htail : Text.returnsPaired (body ++ rest) = true :=
      Text.returnsPaired_of_append [c] hpaired
    by_cases hc : c = '\r'
    · subst hc
      have hhead := Text.head?_of_returnsPaired hpaired
      cases body with
      | nil =>
        have hline : (p.advance '\r').line = p.line := line_advance (by decide)
        exact .inr ⟨hline, hhead⟩
      | cons d body => exact absurd (Option.some.inj hhead) (hbody d (by simp))
    · rw [Text.withoutReturns_cons_of_ne hc]
      exact ih _ (fun d hd => hbody d (List.mem_cons_of_mem _ hd)) htail

/-- Behind a text with paired carriage returns, places that agree are the same. -/
lemma Agree.after_eq (hpaired : Text.returnsPaired cs = true) (h : Agree cs p q) :
    q.after (Text.withoutReturns cs) = p.after cs := by
  induction cs generalizing p q with
  | nil => exact h.eq_of_nil.symm
  | cons c cs ih =>
    have hcs : Text.returnsPaired cs = true := Text.returnsPaired_of_append [c] hpaired
    by_cases hc : c = '\r'
    · subst hc
      have hpq : p = q := h.eq_of_ne (by decide)
      subst hpq
      have hline : (p.advance '\r').line = p.line := line_advance (by decide)
      exact ih hcs (.inr ⟨hline, Text.head?_of_returnsPaired hpaired⟩)
    · rw [Text.withoutReturns_cons_of_ne hc]
      exact ih hcs (.inl h.advance_eq)

end Position

/-! ## Reading without carriage returns -/

namespace Lexeme

variable {rest rest' : List Char}

/-- The piece without its carriage returns. -/
def withoutReturns : Lexeme → Lexeme
  | .trivia text => .trivia (Text.withoutReturns text)
  | .token kind text value faults =>
    .token kind (Text.withoutReturns text) (Text.withoutReturns value) faults
  | .unexpected c => .unexpected c

/-- Is a lexeme a block string? -/
def isBlockString : Lexeme → Bool
  | .token .blockString _ _ _ => true
  | _ => false

lemma text_withoutReturns {l : Lexeme} (h : l.isBlockString = false → '\r' ∉ l.text) :
    l.withoutReturns.text = Text.withoutReturns l.text := by
  cases l with
  | unexpected c => exact (Text.withoutReturns_of_not_mem (h rfl)).symm
  | _ => rfl

/-- The body of a block string stays one. -/
lemma Blockable.withoutReturns {body : List Char} (h : Blockable body)
    (hpaired : Text.returnsPaired body = true) : Blockable (Text.withoutReturns body) := by
  have hquotes : Text.returnsPaired (body ++ ['"', '"']) = true := by
    rw [Text.returnsPaired_append (by simp), hpaired]
    decide
  have hdropped : Text.withoutReturns (body ++ ['"', '"']) =
      Text.withoutReturns body ++ ['"', '"'] :=
    Text.withoutReturns_append body ['"', '"']
  rw [blockable_iff] at h ⊢
  rw [← hdropped]
  exact fun hinfix => h (Text.infix_of_infix_withoutReturns (k := 3) hquotes hinfix)

/-- A piece may stand in front of the rest without carriage returns. -/
lemma Segment.in_front {l : Lexeme} (h : Segment l rest) (hl : l.isSolid = true)
    (hpaired : Text.returnsPaired rest = true) : Segment l (Text.withoutReturns rest) := by
  have hhead : ∀ c ∈ (Text.withoutReturns rest).head?, rest.head? = some c ∨ StartsFiller c := by
    intro c hc
    rcases Text.head?_withoutReturns hpaired c hc with hsame | rfl
    · exact .inl hsame
    · exact .inr (.inl (by decide))
  cases h with
  | blank _ _ => exact Bool.noConfusion hl
  | comment _ _ => exact Bool.noConfusion hl
  | openBlockString hbody => exact .openBlockString hbody
  | brokenString _ hbody => exact .brokenString _ hbody
  | openString hbody => exact .openString hbody
  | openEscape hbody => exact .openEscape hbody
  | unexpected _ hblank hhash halpha hdigit hquote hmark =>
    exact .unexpected _ hblank hhash halpha hdigit hquote hmark
  | identifier hfirst hpart hrest => exact Segment.spaced (.identifier hfirst hpart hrest) hhead
  | number hne hdigit hrest => exact Segment.spaced (.number hne hdigit hrest) hhead
  | blockString _ hbody => exact .blockString _ hbody
  | string hbody hopen => exact Segment.spaced (.string hbody hopen) hhead
  | mark m _ => exact .mark m _

/-- The value of a token is part of its text. -/
lemma Segment.value_subset {kind : TokenKind} {w value : List Char} {faults : List Finding}
    (h : Segment (.token kind w value faults) rest) : value ⊆ w := by
  cases h <;> simp

/-- A piece that has no carriage returns is left as it is. -/
lemma Segment.withoutReturns_eq_self {l : Lexeme} (h : Segment l rest) (hfree : '\r' ∉ l.text) :
    l.withoutReturns = l := by
  cases l with
  | trivia w => exact congrArg trivia (Text.withoutReturns_of_not_mem hfree)
  | token kind w value faults =>
    have hw : Text.withoutReturns w = w := Text.withoutReturns_of_not_mem hfree
    have hvalue : Text.withoutReturns value = value :=
      Text.withoutReturns_of_not_mem fun hc => hfree (h.value_subset hc)
    rw [Lexeme.withoutReturns, hw, hvalue]
  | unexpected c => rfl

section Solid

variable {l : Lexeme} (h : Segment l rest) (hl : l.isSolid = true)
  (hfree : l.isBlockString = false → '\r' ∉ l.text)
  (hpaired : Text.returnsPaired (l.text ++ rest) = true)
include h hl hfree hpaired

/-- Carriage returns are paired within a piece. -/
lemma Segment.returnsPaired_text : Text.returnsPaired l.text = true := by
  cases h with
  | blank _ _ => exact Bool.noConfusion hl
  | comment _ _ => exact Bool.noConfusion hl
  | @blockString body _ hbody =>
    rw [text, List.append_assoc, Text.returnsPaired_append (by simp [tripleQuote]),
      Bool.and_eq_true] at hpaired
    rw [text, Text.returnsPaired_append (by simp [tripleQuote]), hpaired.1]
    decide
  | openBlockString _ => rwa [List.append_nil] at hpaired
  | _ => exact Text.returnsPaired_of_not_mem (hfree rfl)

/-- **A piece without its carriage returns** may stand in front of the rest without them. -/
lemma Segment.withoutReturns : Segment l.withoutReturns (Text.withoutReturns rest) := by
  have hrest : Text.returnsPaired rest = true := Text.returnsPaired_of_append _ hpaired
  have htext := h.returnsPaired_text hl hfree hpaired
  by_cases hblock : l.isBlockString = true
  · cases h with
    | @blockString body _ hbody =>
      rw [text, List.append_assoc] at htext
      have hbodyPaired := Text.returnsPaired_of_append tripleQuote htext
      rw [Text.returnsPaired_append (by simp [tripleQuote]), Bool.and_eq_true] at hbodyPaired
      rw [Lexeme.withoutReturns, Text.withoutReturns_append, Text.withoutReturns_append]
      exact .blockString _ (hbody.withoutReturns hbodyPaired.1)
    | @openBlockString body hbody =>
      have hbodyPaired := Text.returnsPaired_of_append tripleQuote htext
      rw [Lexeme.withoutReturns, Text.withoutReturns_append]
      refine .openBlockString fun hinfix => hbody ?_
      exact Text.infix_of_infix_withoutReturns (k := 3) hbodyPaired hinfix
    | _ => exact Bool.noConfusion hblock
  · rw [h.withoutReturns_eq_self (hfree (by simpa using hblock))]
    exact h.in_front hl hrest

/-- It ends at the same place. -/
lemma Segment.rangeFrom_withoutReturns (p : Position) :
    l.withoutReturns.rangeFrom p = l.rangeFrom p := by
  have hafter : p.after (Text.withoutReturns l.text) = p.after l.text :=
    Position.Agree.after_eq (h.returnsPaired_text hl hfree hpaired) (.inl rfl)
  rw [rangeFrom, rangeFrom, text_withoutReturns hfree, hafter]

/-- Its token is the same, up to the spelling of literals. -/
lemma Segment.tokenFrom_withoutReturns (p : Position) :
    l.withoutReturns.tokenFrom p = (l.tokenFrom p).map (.respell Text.dropReturns) := by
  have hrange := h.rangeFrom_withoutReturns hl hfree hpaired p
  cases l with
  | trivia w => rfl
  | unexpected c => rfl
  | token kind w value faults =>
    have hvalue : String.ofList (Text.withoutReturns value) =
        if kind ∈ TokenKind.literals then Text.dropReturns (String.ofList value)
        else String.ofList value := by
      split
      · rw [Text.dropReturns, String.toList_ofList]
      · rename_i hkind
        have hblock : (token kind w value faults).isBlockString = false := by
          cases kind with
          | blockString => exact absurd (by decide) hkind
          | _ => rfl
        rw [Text.withoutReturns_of_not_mem fun hc => hfree hblock (h.value_subset hc)]
    rw [Lexeme.withoutReturns] at hrange ⊢
    simp only [tokenFrom, Option.map_some, hrange, hvalue]
    rfl

/-- The same is wrong with it. -/
lemma Segment.diagnosticsFrom_withoutReturns (p : Position) :
    l.withoutReturns.diagnosticsFrom p =
      (l.diagnosticsFrom p).map (.respell Text.dropReturns) := by
  have hrange := h.rangeFrom_withoutReturns hl hfree hpaired p
  have hfindings : l.withoutReturns.findings.map (Finding.respell Text.dropReturns) =
      l.withoutReturns.findings := by
    cases h <;> rfl
  have hsame : l.withoutReturns.findings = l.findings := by
    cases l <;> rfl
  rw [diagnosticsFrom, diagnosticsFrom, hrange, ← hfindings, hsame, List.map_map, List.map_map]
  rfl

end Solid

/-- A piece that is more than trivia does not start with a line feed. -/
lemma Segment.head_ne {l : Lexeme} (h : Segment l rest) (hl : l.isSolid = true) :
    ∃ c cs, l.text = c :: cs ∧ c ≠ '\n' := by
  obtain ⟨c, cs, htext, hsegment⟩ := h.segment_eq
  obtain ⟨d, ds, hd⟩ := List.exists_cons_of_ne_nil h.text_ne_nil
  rw [hd, List.cons_append] at htext
  obtain ⟨rfl, -⟩ := List.cons.inj htext
  refine ⟨d, ds, hd, ?_⟩
  rintro rfl
  obtain rfl : Lexeme.trivia ['\n'] = l := hsegment
  exact Bool.noConfusion hl

/-- **A text is read alike without its carriage returns**, if these are paired and block strings are
the only tokens that have any.

**Proof sketch.** Induction on the cut. A carriage return between tokens is a blank or ends a
comment, and is dropped there; from it up to the line feed behind it the places differ, but no token
starts or ends between the two. A block string starts and ends at the same places. -/
lemma Cut.withoutReturns {cs : List Char} {ls : List Lexeme} {p q : Position} (h : Cut cs ls)
    (hpaired : Text.returnsPaired cs = true)
    (hfree : ∀ l ∈ ls, l.isSolid = true → l.isBlockString = false → '\r' ∉ l.text)
    (hpq : Position.Agree cs p q) :
    ∃ ms, Cut (Text.withoutReturns cs) ms ∧
      tokensOf q ms = (tokensOf p ls).map (.respell Text.dropReturns) ∧
      diagnosticsOf q ms = (diagnosticsOf p ls).map (.respell Text.dropReturns) := by
  induction h generalizing p q with
  | nil => exact ⟨[], .nil, rfl, rfl⟩
  | @cons l rest ls hl _ ih =>
    have hrest : Text.returnsPaired rest = true := Text.returnsPaired_of_append _ hpaired
    replace ih := fun {p q} => @ih p q hrest fun m hm => hfree m (List.mem_cons_of_mem l hm)
    by_cases hsolid : l.isSolid = true
    · -- a token, or a character that starts none: both readings stand at the same place
      obtain ⟨c, cs, htext, hc⟩ := hl.head_ne hsolid
      have hpq' : p = q := by
        rw [htext] at hpq
        exact hpq.eq_of_ne hc
      subst hpq'
      have hlfree := hfree l (List.mem_cons_self ..) hsolid
      have hrange := hl.rangeFrom_withoutReturns hsolid hlfree hpaired p
      have hstop : p.after l.withoutReturns.text = p.after l.text := congrArg Range.stop hrange
      obtain ⟨ms, hms, htokens, hdiagnostics⟩ := ih (.inl (rfl : p.after l.text = p.after l.text))
      refine ⟨l.withoutReturns :: ms, ?_, ?_, ?_⟩
      · rw [Text.withoutReturns_append, ← text_withoutReturns hlfree]
        exact .cons (hl.withoutReturns hsolid hlfree hpaired) hms
      · rw [tokensOf, tokensOf, hl.tokenFrom_withoutReturns hsolid hlfree hpaired, hstop, htokens,
          List.map_append]
        cases l.tokenFrom p <;> rfl
      · rw [diagnosticsOf, diagnosticsOf, hstop, hdiagnostics, List.map_append,
          hl.diagnosticsFrom_withoutReturns hsolid hlfree hpaired]
    · cases hl with
      | @blank c _ hblank =>
        by_cases hreturn : c = '\r'
        · subst hreturn
          have hpq' : p = q := hpq.eq_of_ne (by decide)
          subst hpq'
          have hline : (p.advance '\r').line = p.line := Position.line_advance (by decide)
          exact ih (.inr ⟨hline, Text.head?_of_returnsPaired hpaired⟩)
        · obtain ⟨ms, hms, hcontents⟩ := ih (.inl hpq.advance_eq)
          refine ⟨.trivia [c] :: ms, ?_, hcontents⟩
          have hkept : Text.withoutReturns ([c] ++ rest) = c :: Text.withoutReturns rest :=
            Text.withoutReturns_cons_of_ne hreturn rest
          exact hkept ▸ .cons (.blank _ hblank) hms
      | @comment body _ hbody hend =>
        have hpq' : p = q := hpq.eq_of_ne (by decide)
        subst hpq'
        have hcomment : Text.returnsPaired (body ++ rest) = true :=
          Text.returnsPaired_of_append ['#'] hpaired
        have hagree := Position.agree_after_comment (p.advance '#') hbody hcomment
        obtain ⟨ms, hms, hcontents⟩ := ih hagree
        refine ⟨.trivia ('#' :: Text.withoutReturns body) :: ms, ?_, hcontents⟩
        rw [Text.withoutReturns_append]
        refine .cons (l := .trivia ('#' :: Text.withoutReturns body)) (.comment ?_ ?_) hms
        · exact fun c hc => hbody c (List.mem_of_mem_filter hc)
        · rcases hend with rfl | hline
          · exact .inl rfl
          · cases rest with
            | nil => cases hline
            | cons d rest =>
              obtain rfl := Option.some.inj hline
              exact .inr rfl
      | _ => exact absurd rfl hsolid

/-- A piece has no carriage return if its token has none. -/
lemma Segment.not_mem_text {l : Lexeme} (h : Segment l rest)
    (hvalue : ∀ kind text value faults, l = .token kind text value faults → '\r' ∉ value)
    (hl : l.isSolid = true) : '\r' ∉ l.text := by
  cases h with
  | blank _ _ => exact Bool.noConfusion hl
  | comment _ _ => exact Bool.noConfusion hl
  | @unexpected c _ hblank =>
    rw [text, List.mem_singleton]
    rintro rfl
    exact absurd hblank (by decide)
  | _ =>
    have hfree := hvalue _ _ _ _ rfl
    simp_all [text, tripleQuote]

/-- The pieces of a text have no carriage returns if its tokens have none, block strings apart. -/
lemma Cut.not_mem_text {cs : List Char} {ls : List Lexeme} (h : Cut cs ls)
    (hfree : ∀ t ∈ tokensOf .origin ls, t.kind ≠ .blockString → '\r' ∉ t.text.toList) {l : Lexeme}
    (hl : l ∈ ls) (hsolid : l.isSolid = true) (hblock : l.isBlockString = false) :
    '\r' ∉ l.text := by
  obtain ⟨rest, hsegment⟩ := h.segment_of_mem hl
  refine hsegment.not_mem_text ?_ hsolid
  rintro kind w value faults rfl
  obtain ⟨t, ht, hkind, htext⟩ := exists_mem_tokensOf hl .origin
  have hother : t.kind ≠ .blockString := by
    rintro heq
    rw [← hkind, heq] at hblock
    exact Bool.noConfusion hblock
  have hfree' := hfree t ht hother
  rwa [htext, String.toList_ofList] at hfree'

end Lexeme

/-! ## Linting without carriage returns -/

/-- In a text, carriage returns only end lines: each is directly followed by a line feed, none is
part of a token other than a block string, and no two literals differ in carriage returns alone. -/
structure ReturnsEndLines (text : String) : Prop where
  paired : Text.returnsPaired text.toList = true
  outside : ∀ t ∈ (tokenize text).tokens, t.kind ≠ .blockString → '\r' ∉ t.text.toList
  apart : ∀ t ∈ (tokenize text).tokens, ∀ u ∈ (tokenize text).tokens,
    t.kind ∈ TokenKind.literals → u.kind ∈ TokenKind.literals →
      Text.dropReturns t.text = Text.dropReturns u.text → t.text = u.text

lemma not_mem_literals_eof (text : String) : (tokenize text).eof.kind ∉ TokenKind.literals :=
  show TokenKind.eof ∉ TokenKind.literals by decide

/-- **Unified line ends are read alike**, if carriage returns only end lines. -/
lemma ofTokenized_unifyNewlines {text : String} (h : ReturnsEndLines text) :
    Checker.ofTokenized (tokenize (Text.unifyNewlines text)) =
      (Checker.ofTokenized (tokenize text)).respell Text.dropReturns := by
  obtain ⟨ls, hls⟩ := Lexeme.exists_cut text.toList
  obtain ⟨htokens, hdiagnostics⟩ := contents_tokenize hls
  have hfree := h.outside
  rw [htokens] at hfree
  obtain ⟨ms, hms, htokens', hdiagnostics'⟩ :=
    hls.withoutReturns (p := .origin) (q := .origin) h.paired (fun _ => hls.not_mem_text hfree)
      (.inl rfl)
  have hunified : (Text.unifyNewlines text).toList = Text.withoutReturns text.toList := by
    rw [Text.unifyNewlines, String.toList_ofList, Text.unifyLines_eq h.paired]
  have hend : Position.origin.after (Text.withoutReturns text.toList) =
      Position.origin.after text.toList :=
    Position.Agree.after_eq h.paired (.inl rfl)
  rw [← hunified] at hms hend
  have heof : (tokenize (Text.unifyNewlines text)).eof =
      (tokenize text).eof.respell Text.dropReturns := by
    rw [Token.respell_of_kind (not_mem_literals_eof text)]
    exact congrArg Token.eofAt hend
  rw [Checker.ofTokenized, Checker.ofTokenized, Checker.start, (contents_tokenize hms).1, htokens',
    ← htokens, (contents_tokenize hms).2, hdiagnostics', ← hdiagnostics, heof, ← List.map_reverse]
  rfl

/-- **The same is found where line ends are unified**, up to the spelling of block strings. -/
lemma lint_unifyNewlines {text : String} (h : ReturnsEndLines text) :
    lint (Text.unifyNewlines text) = (lint text).map (.respell Text.dropReturns) := by
  have hrespells : Respells Text.dropReturns
      fun x => ∃ t ∈ (tokenize text).tokens, t.kind ∈ TokenKind.literals ∧ t.text = x := by
    refine ⟨?_, fun {x} _ => Text.allBlank_dropReturns x⟩
    rintro _ _ ⟨t, ht, htkind, rfl⟩ ⟨u, hu, hukind, rfl⟩ heq
    exact h.apart t ht u hu htkind hukind heq
  rw [lint, lint, ofTokenized_unifyNewlines h, Check.finish_respell hrespells,
    Checker.diagnostics_respell]
  intro t ht hkind
  rcases List.mem_append.1 ht with htokens | heof
  · exact ⟨t, htokens, hkind, rfl⟩
  · rw [List.mem_singleton] at heof
    subst heof
    exact absurd hkind (not_mem_literals_eof text)

/-- In both spellings, messages are the same up to carriage returns. -/
lemma Diagnostic.dropReturns_message_respell (d : Diagnostic) :
    Text.dropReturns (d.respell Text.dropReturns).message = Text.dropReturns d.message := by
  have hquote (a x b : String) :
      Text.dropReturns (a ++ Text.dropReturns x ++ b) = Text.dropReturns (a ++ x ++ b) := by
    simp only [Text.dropReturns_append, Text.dropReturns_dropReturns]
  obtain ⟨finding, range⟩ := d
  cases finding with
  | unmatchedTiebreaker label => exact hquote _ label _
  | duplicateSourcePath path => exact hquote _ path _
  | _ => rfl

/-- A diagnostic whose message has no carriage returns is the same in both spellings. -/
lemma Diagnostic.respell_eq_self {d : Diagnostic} (h : '\r' ∉ d.message.toList) :
    d.respell Text.dropReturns = d := by
  have hquote {a x b : String} (hfree : '\r' ∉ (a ++ x ++ b).toList) : Text.dropReturns x = x := by
    rw [String.toList_append, String.toList_append, List.mem_append, List.mem_append, not_or,
      not_or] at hfree
    exact Text.dropReturns_of_not_mem hfree.1.2
  obtain ⟨finding, range⟩ := d
  cases finding with
  | unmatchedTiebreaker label => rw [respell, Finding.respell, hquote h]
  | duplicateSourcePath path => rw [respell, Finding.respell, hquote h]
  | _ => rfl

/-! ## The main result -/

/-- The marker with the carriage returns of its message dropped. -/
def Editor.Marker.withoutReturns (m : Editor.Marker) : Editor.Marker :=
  { m with message := Text.dropReturns m.message }

/-- The markers of a script show the same in both spellings, up to carriage returns. -/
lemma Editor.Marker.withoutReturns_ofDiagnostic_respell (d : Diagnostic) :
    (Editor.Marker.ofDiagnostic (d.respell Text.dropReturns)).withoutReturns =
      (Editor.Marker.ofDiagnostic d).withoutReturns := by
  rw [ofDiagnostic, withoutReturns, Diagnostic.dropReturns_message_respell,
    Diagnostic.severity_respell]
  rfl

/-- What is published when a document is opened, whatever else is open. -/
lemma Editor.runFrom_open (s : Editor.Session) (d : Editor.Document) :
    Editor.runFrom s [.open d] =
      [⟨d.uri, some d.version, (lint d.text).map Editor.Marker.ofDiagnostic⟩] := by
  simp [Editor.runFrom, Editor.Session.after, Editor.Session.publish, Editor.Session.find?,
    Editor.Session.insert, Editor.Event.uri]

/-- A file that holds the encoding of a text is linted as the text with unified line ends. -/
lemma lintFile_of_read {tree : FileTree} {path : Path} {text : String}
    (hread : tree.read path = .ok text.toUTF8.data.toList) :
    FileSet.lintFile tree path = .ok ⟨path.text, lint (Text.unifyNewlines text)⟩ := by
  rw [FileSet.lintFile, FileSet.readScript, hread]
  exact congrArg (fun text => Except.ok (LintResult.mk path.text (lint (Text.unifyNewlines text))))
    (Text.Utf8.decodeLossy_toUTF8 text)

/-- **A file and a document with the same text have the same findings**, up to line ends. A file
that holds the encoding of a text can be linted. What is found is, in the same order and with the
same severities, messages and ranges, what an editor is shown when it opens a document with the text
in which every line end is a line feed. If carriage returns only end lines, it is also what the
editor is shown when it opens a document with the text as it is, up to the carriage returns that
messages quote from block strings, and altogether if they quote none.

**Proof sketch.** The encoding is read back (`Text.Utf8.decodeLossy_toUTF8`). Where carriage returns
only end lines, to unify line ends is to drop them, and the same is found in the text without them
(`lint_unifyNewlines`). -/
theorem lintFile_eq_published (tree : FileTree) (path : Path) (text : String)
    (hread : tree.read path = .ok text.toUTF8.data.toList) (s : Editor.Session) (uri : String)
    (version : Int) :
    ∃ r, FileSet.lintFile tree path = .ok r ∧
      Editor.runFrom s [.open ⟨uri, version, Text.unifyNewlines text⟩] =
        [⟨uri, some version, r.diagnostics.map Editor.Marker.ofDiagnostic⟩] ∧
      (ReturnsEndLines text → ∃ ms,
        Editor.runFrom s [.open ⟨uri, version, text⟩] = [⟨uri, some version, ms⟩] ∧
        ms.map Editor.Marker.withoutReturns =
          (r.diagnostics.map Editor.Marker.ofDiagnostic).map Editor.Marker.withoutReturns ∧
        ((∀ m ∈ ms, '\r' ∉ m.message.toList) →
          ms = r.diagnostics.map Editor.Marker.ofDiagnostic)) := by
  refine ⟨⟨path.text, lint (Text.unifyNewlines text)⟩, lintFile_of_read hread, ?_, fun h => ?_⟩
  · rw [Editor.runFrom_open]
  · refine ⟨(lint text).map Editor.Marker.ofDiagnostic, Editor.runFrom_open .., ?_, fun hfree => ?_⟩
    · rw [lint_unifyNewlines h, List.map_map, List.map_map, List.map_map]
      refine List.map_congr_left fun d _ => ?_
      exact (Editor.Marker.withoutReturns_ofDiagnostic_respell d).symm
    · rw [lint_unifyNewlines h, List.map_map]
      refine List.map_congr_left fun d hd => ?_
      have hmessage : '\r' ∉ d.message.toList := hfree _ (List.mem_map_of_mem hd)
      rw [Function.comp_apply, Diagnostic.respell_eq_self hmessage]

/-- A block string with a line end of two characters makes no difference. -/
theorem lintFile_eq_published_two_lines :
    let text := "\"\"\"\r\n\"\"\"\r\n@"
    let tree : FileTree := ⟨.directory [("a.jls", .file text.toUTF8.data.toList)], []⟩
    let path : Path := ⟨.root, ["a.jls"]⟩
    tree.read path = .ok text.toUTF8.data.toList ∧ ReturnsEndLines text ∧
      ∃ r ms, FileSet.lintFile tree path = .ok r ∧
        Editor.run [.open ⟨"a", 1, text⟩] = [⟨"a", some 1, ms⟩] ∧
        ms.map Editor.Marker.withoutReturns =
          (r.diagnostics.map Editor.Marker.ofDiagnostic).map Editor.Marker.withoutReturns := by
  intro text tree path
  have hread : tree.read path = .ok text.toUTF8.data.toList :=
    FileTree.read_of_descend? (by decide +kernel) (by decide +kernel) rfl
  have hreturns : ReturnsEndLines text := ⟨by decide +kernel, by decide +kernel, by decide +kernel⟩
  obtain ⟨r, hr, -, hpublished⟩ := lintFile_eq_published tree path text hread [] "a" 1
  obtain ⟨ms, hms, hsame, -⟩ := hpublished hreturns
  exact ⟨hread, hreturns, r, ms, hr, hms, hsame⟩

/-- What is found before the check of a script begins is reported. -/
lemma mem_lint_of_mem_tokenize {script : String} {d : Diagnostic}
    (h : d ∈ (tokenize script).diagnostics) : d ∈ lint script := by
  obtain ⟨new, hnew, -⟩ := Check.range_of_mem_finish
    (p := fun _ => True) (s := .ofTokenized (tokenize script)) (fun _ _ => trivial) trivial
  rw [mem_lint_iff, hnew]
  exact List.mem_append_right _ (List.mem_reverse.2 h)

/-- In a document, an open literal goes on to the end of its line, carriage return included. -/
lemma exists_mem_lint_open_literal : ∃ d ∈ lint "\"\r\n", d.range = ⟨⟨0, 0⟩, ⟨0, 2⟩⟩ := by
  have hbody : Lexeme.Quotable ['\r'] := .plain (by decide) (by decide) (by decide) .nil
  have hcut : Lexeme.Cut "\"\r\n".toList _ :=
    .cons (.brokenString [] hbody) (.cons (.blank [] (by decide)) .nil)
  refine ⟨⟨.multilineString, ⟨⟨0, 0⟩, ⟨0, 2⟩⟩⟩, mem_lint_of_mem_tokenize ?_, rfl⟩
  rw [(contents_tokenize hcut).2]
  decide

/-- An open literal has another end in a file, where the carriage return is gone. -/
lemma lint_open_literal_ne : (lint "\"\r\n").map Editor.Marker.ofDiagnostic ≠
    (lint (Text.unifyNewlines "\"\r\n")).map Editor.Marker.ofDiagnostic := by
  intro heq
  obtain ⟨d, hd, hrange⟩ := exists_mem_lint_open_literal
  have hmarkers : Editor.Marker.ofDiagnostic d ∈
      (lint (Text.unifyNewlines "\"\r\n")).map Editor.Marker.ofDiagnostic :=
    heq ▸ List.mem_map_of_mem hd
  obtain ⟨e, he, hed⟩ := List.mem_map.1 hmarkers
  have hunify : (Text.unifyNewlines "\"\r\n").toList = ['"', '\n'] := by decide
  obtain ⟨i, j, -, hj, hstop, -⟩ := hunify ▸ denotes_of_mem_lint he
  have hstop : (⟨0, 2⟩ : Position) = .ofOffset ['"', '\n'] j := by
    rw [show e.range = d.range from congrArg Editor.Marker.range hed, hrange] at hstop
    exact congrArg Range.stop hstop
  have hall : ∀ j ≤ ['"', '\n'].length, (⟨0, 2⟩ : Position) ≠ .ofOffset ['"', '\n'] j := by
    decide
  exact hall j hj hstop

/-- A file and a document differ if unified line ends make a difference. -/
lemma exists_lintFile_ne {tree : FileTree} {path : Path} {text : String}
    (hread : tree.read path = .ok text.toUTF8.data.toList)
    (hne : (lint text).map Editor.Marker.ofDiagnostic ≠
      (lint (Text.unifyNewlines text)).map Editor.Marker.ofDiagnostic)
    (uri : String) (version : Int) :
    ∃ r, FileSet.lintFile tree path = .ok r ∧ Editor.run [.open ⟨uri, version, text⟩] ≠
      [⟨uri, some version, r.diagnostics.map Editor.Marker.ofDiagnostic⟩] := by
  refine ⟨_, lintFile_of_read hread, fun heq => hne ?_⟩
  rw [Editor.run, Editor.runFrom_open] at heq
  exact (Editor.Publication.mk.inj (List.cons.inj heq).1).2.2

/-- Other carriage returns do make a difference. One that stands alone starts a line in a file, but
not in a document; and one at the end of an open literal is part of it in a document, but not in a
file. -/
theorem lintFile_ne_published :
    let tree : FileTree :=
      ⟨.directory [("a.jls", .file [0x0D, 0x40]), ("b.jls", .file [0x22, 0x0D, 0x0A])], []⟩
    (tree.read ⟨.root, ["a.jls"]⟩ = .ok "\r@".toUTF8.data.toList ∧
      ∃ r, FileSet.lintFile tree ⟨.root, ["a.jls"]⟩ = .ok r ∧
        Editor.run [.open ⟨"a", 1, "\r@"⟩] ≠
          [⟨"a", some 1, r.diagnostics.map Editor.Marker.ofDiagnostic⟩]) ∧
    tree.read ⟨.root, ["b.jls"]⟩ = .ok "\"\r\n".toUTF8.data.toList ∧
      ∃ r, FileSet.lintFile tree ⟨.root, ["b.jls"]⟩ = .ok r ∧
        Editor.run [.open ⟨"b", 1, "\"\r\n"⟩] ≠
          [⟨"b", some 1, r.diagnostics.map Editor.Marker.ofDiagnostic⟩] := by
  intro tree
  have hreturn : tree.read ⟨.root, ["a.jls"]⟩ = .ok "\r@".toUTF8.data.toList :=
    FileTree.read_of_descend? (by decide +kernel) (by decide +kernel) rfl
  have hliteral : tree.read ⟨.root, ["b.jls"]⟩ = .ok "\"\r\n".toUTF8.data.toList :=
    FileTree.read_of_descend? (by decide +kernel) (by decide +kernel) rfl
  exact ⟨⟨hreturn, exists_lintFile_ne hreturn (by decide +kernel) "a" 1⟩,
    hliteral, exists_lintFile_ne hliteral lint_open_literal_ne "b" 1⟩

end WorkflowLint
