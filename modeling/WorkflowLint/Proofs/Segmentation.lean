import Mathlib.Data.List.Infix
import Mathlib.Data.List.TakeWhile
import WorkflowLint.Lexeme

/-!
# Segments of a script

A second account of how a script is cut into pieces. It is a relation, not a scanner:
`Segment l rest` says that `l` is a well-formed piece which may stand in front of `rest`, and
`Cut text ls` that `ls` are such pieces, one behind the other, and together are the text. Each blank
character and each comment is a piece of its own.

## Design

The condition on `rest` is what makes a piece as long as possible: an identifier is not followed by
a character that could continue it, a comment is followed by the end of its line. It is also all
that a piece needs to know of what comes behind it, so pieces can be kept when a text is extended.

## Main definitions

* `WorkflowLint.Lexeme.Quotable`, `WorkflowLint.Lexeme.Blockable` — the bodies of closed literals.
* `WorkflowLint.Lexeme.Segment` — a piece in front of what is left.
* `WorkflowLint.Lexeme.Cut` — the pieces of a text.

## Main results

* `WorkflowLint.Lexeme.exists_segment`, `WorkflowLint.Lexeme.Segment.unique` — every text that is
  not empty starts with exactly one segment.
* `WorkflowLint.Lexeme.exists_cut`, `WorkflowLint.Lexeme.Cut.unique` — every text has exactly one
  cut.
* `WorkflowLint.Lexeme.contents_of_cut` — a cut has the tokens and diagnostics of the scanner.
* `WorkflowLint.tokenize_unique_cut` — the tokens of a script are those of its only cut.
-/

set_option autoImplicit false

namespace WorkflowLint

namespace Lexeme

/-! ## Segments and cuts -/

/-- Three quotes in a row. -/
def tripleQuote : List Char := ['"', '"', '"']

/-- The body of a closed quoted literal: characters other than quotes, backslashes and line feeds,
and pairs of a backslash and any character. -/
inductive Quotable : List Char → Prop
  | nil : Quotable []
  | plain {c : Char} {cs : List Char} :
      c ≠ '"' → c ≠ '\\' → c ≠ '\n' → Quotable cs → Quotable (c :: cs)
  | escape (c : Char) {cs : List Char} : Quotable cs → Quotable ('\\' :: c :: cs)

/-- The body of a closed triple-quoted literal: the three quotes behind it are the first in a
row. -/
def Blockable (body : List Char) : Prop :=
  ∀ u v, body = u ++ v → v ≠ [] → ¬ tripleQuote <+: v ++ tripleQuote

/-- `Segment l rest`: the lexeme `l` is a piece of a script that may stand in front of `rest`. -/
inductive Segment : Lexeme → List Char → Prop
  | blank {c : Char} (rest : List Char) : isBlank c = true → Segment (.trivia [c]) rest
  | comment {body rest : List Char} :
      (∀ c ∈ body, c ≠ '\n') → (rest = [] ∨ rest.head? = some '\n') →
        Segment (.trivia ('#' :: body)) rest
  | identifier {c : Char} {cs rest : List Char} :
      c.isAlpha = true → (∀ d ∈ cs, isNamePart d = true) →
        (∀ d ∈ rest.head?, isNamePart d = false) →
        Segment (.token .identifier (c :: cs) (c :: cs) []) rest
  | number {cs rest : List Char} :
      cs ≠ [] → (∀ d ∈ cs, d.isDigit = true) → (∀ d ∈ rest.head?, d.isDigit = false) →
        Segment (.token .number cs cs []) rest
  | blockString {body : List Char} (rest : List Char) :
      Blockable body →
        Segment (.token .blockString (tripleQuote ++ body ++ tripleQuote) body []) rest
  /-- A triple-quoted literal that is still open at the end of the script. -/
  | openBlockString {body : List Char} :
      ¬ tripleQuote <:+: body →
        Segment (.token .blockString (tripleQuote ++ body) body [.unterminatedBlockString]) []
  | string {body rest : List Char} :
      Quotable body → ¬ tripleQuote <+: '"' :: body ++ '"' :: rest →
        Segment (.token .string ('"' :: body ++ ['"']) body []) rest
  /-- A quoted literal that is still open at the end of its line. -/
  | brokenString {body : List Char} (rest : List Char) :
      Quotable body →
        Segment (.token .string ('"' :: body) body [.multilineString, .unterminatedString])
          ('\n' :: rest)
  /-- A quoted literal that is still open at the end of the script. -/
  | openString {body : List Char} :
      Quotable body → Segment (.token .string ('"' :: body) body [.unterminatedString]) []
  /-- The same where the last character is a backslash with nothing behind it. -/
  | openEscape {body : List Char} :
      Quotable body →
        Segment (.token .string ('"' :: (body ++ ['\\'])) (body ++ ['\\']) [.unterminatedString]) []
  | mark (m : Mark) (rest : List Char) : Segment (.token (.mark m) [m.char] [m.char] []) rest
  | unexpected {c : Char} (rest : List Char) :
      isBlank c = false → c ≠ '#' → c.isAlpha = false → c.isDigit = false → c ≠ '"' →
        (∀ m : Mark, m.char ≠ c) → Segment (.unexpected c) rest

/-- `Cut text ls`: the lexemes `ls` are segments, one behind the other, and together are the
text. -/
inductive Cut : List Char → List Lexeme → Prop
  | nil : Cut [] []
  | cons {l : Lexeme} {rest : List Char} {ls : List Lexeme} :
      Segment l rest → Cut rest ls → Cut (l.text ++ rest) (l :: ls)

/-- A segment is not empty. -/
lemma Segment.text_ne_nil {l : Lexeme} {rest : List Char} (h : Segment l rest) : l.text ≠ [] := by
  cases h with
  | number hne => exact hne
  | _ => simp [text, tripleQuote]

/-- The segments of a cut are the text, cut into pieces. -/
lemma Cut.textOf_eq {cs : List Char} {ls : List Lexeme} (h : Cut cs ls) : textOf ls = cs := by
  induction h with
  | nil => rfl
  | cons _ _ ih => rw [textOf, List.flatMap_cons, ← textOf, ih]

/-! ## Bodies of literals -/

lemma startsTriple_iff (cs : List Char) : startsTriple cs = true ↔ tripleQuote <+: cs := by
  unfold startsTriple
  split
  · simp [tripleQuote]
  · rename_i h
    simp only [Bool.false_eq_true, false_iff]
    rintro ⟨rest, rfl⟩
    exact h rest rfl

/-- A quotable body is read, and reading goes on behind it. -/
lemma stringBody_append {body : List Char} (h : Quotable body) (rest : List Char) :
    stringBody (body ++ rest) = (body ++ (stringBody rest).1, (stringBody rest).2) := by
  induction h with
  | nil => rfl
  | plain _ hbackslash _ _ ih => simp [stringBody, ih, hbackslash]
  | escape c _ ih => simp [stringBody, ih]

/-- **What becomes of a quoted literal.** Its body is closed by a quote, cut off by a line feed, or
runs up to the end of the script, where a last backslash has nothing to escape. -/
lemma quotable_cases (cs : List Char) :
    (∃ body rest, cs = body ++ '"' :: rest ∧ Quotable body) ∨
      (∃ body rest, cs = body ++ '\n' :: rest ∧ Quotable body) ∨ Quotable cs ∨
      ∃ body, cs = body ++ ['\\'] ∧ Quotable body := by
  fun_induction stringBody cs with
  | case1 => exact .inr (.inr (.inl .nil))
  | case2 rest => exact .inl ⟨[], rest, rfl, .nil⟩
  | case3 rest => exact .inr (.inl ⟨[], rest, rfl, .nil⟩)
  | case4 => exact .inr (.inr (.inr ⟨[], rfl, .nil⟩))
  | case5 c cs _ _ _ ih =>
    rcases ih with ⟨body, rest, rfl, h⟩ | ⟨body, rest, rfl, h⟩ | h | ⟨body, rfl, h⟩
    · exact .inl ⟨'\\' :: c :: body, rest, rfl, .escape c h⟩
    · exact .inr (.inl ⟨'\\' :: c :: body, rest, rfl, .escape c h⟩)
    · exact .inr (.inr (.inl (.escape c h)))
    · exact .inr (.inr (.inr ⟨'\\' :: c :: body, rfl, .escape c h⟩))
  | case6 c cs h₁ h₂ h₃ h₄ _ _ _ ih =>
    have hbackslash : c ≠ '\\' := by
      rintro rfl
      cases cs with
      | nil => exact h₃ rfl rfl
      | cons d ds => exact h₄ d ds rfl rfl
    have hquote : c ≠ '"' := h₁
    have hline : c ≠ '\n' := h₂
    rcases ih with ⟨body, rest, rfl, h⟩ | ⟨body, rest, rfl, h⟩ | h | ⟨body, rfl, h⟩
    · exact .inl ⟨c :: body, rest, rfl, .plain hquote hbackslash hline h⟩
    · exact .inr (.inl ⟨c :: body, rest, rfl, .plain hquote hbackslash hline h⟩)
    · exact .inr (.inr (.inl (.plain hquote hbackslash hline h)))
    · exact .inr (.inr (.inr ⟨c :: body, rfl, .plain hquote hbackslash hline h⟩))

/-- A body is read up to the first three quotes in a row. -/
lemma blockBody_closed {body : List Char} (h : Blockable body) (rest : List Char) :
    blockBody (body ++ tripleQuote ++ rest) = (body, .closed) := by
  induction body with
  | nil => rfl
  | cons c cs ih =>
    have hopen : startsTriple (c :: (cs ++ tripleQuote ++ rest)) = false := by
      rw [Bool.eq_false_iff, ne_eq, startsTriple_iff]
      intro hprefix
      have hlength : tripleQuote.length ≤ (c :: cs ++ tripleQuote).length := by
        rw [List.length_append]
        omega
      refine h [] (c :: cs) rfl (List.cons_ne_nil c cs) ?_
      exact List.prefix_of_prefix_length_le hprefix ⟨rest, rfl⟩ hlength
    have hrest := ih fun u v huv => h (c :: u) v (by rw [huv, List.cons_append])
    simp only [List.cons_append, blockBody, hopen, hrest, Bool.false_eq_true, if_false]

/-- Without three quotes in a row, a body runs up to the end of the script. -/
lemma blockBody_open {body : List Char} (h : ¬ tripleQuote <:+: body) :
    blockBody body = (body, .script) := by
  induction body with
  | nil => rfl
  | cons c cs ih =>
    rw [List.infix_cons_iff, not_or] at h
    have hopen : startsTriple (c :: cs) = false := by
      rw [Bool.eq_false_iff, ne_eq, startsTriple_iff]
      exact h.1
    simp only [blockBody, hopen, ih h.2, Bool.false_eq_true, if_false]

/-- **What becomes of a triple-quoted literal.** It is closed by the first three quotes in a row, or
there are none. -/
lemma blockable_cases (cs : List Char) :
    (∃ body rest, cs = body ++ tripleQuote ++ rest ∧ Blockable body) ∨ ¬ tripleQuote <:+: cs := by
  induction cs with
  | nil => exact .inr (by simp [tripleQuote])
  | cons c cs ih =>
    by_cases hprefix : tripleQuote <+: c :: cs
    · obtain ⟨rest, hrest⟩ := hprefix
      refine .inl ⟨[], rest, hrest.symm, ?_⟩
      intro u v huv hv
      exact absurd (List.append_eq_nil_iff.1 huv.symm).2 hv
    · rcases ih with ⟨body, rest, rfl, h⟩ | h
      · refine .inl ⟨c :: body, rest, rfl, ?_⟩
        intro u v huv hv
        cases u with
        | nil =>
          intro hquotes
          rw [List.nil_append] at huv
          subst huv
          exact hprefix (hquotes.trans ⟨rest, rfl⟩)
        | cons d u => exact h u v (List.cons.inj huv).2 hv
      · exact .inr fun hinfix => (List.infix_cons_iff.1 hinfix).elim hprefix h

/-- The first three quotes in a row are also the first two behind which another one follows. -/
lemma blockable_iff {body : List Char} :
    Blockable body ↔ ¬ tripleQuote <:+: body ++ ['"', '"'] := by
  induction body with
  | nil =>
    refine ⟨fun _ hinfix => absurd hinfix.length_le (by decide), fun _ u v huv hv => ?_⟩
    exact absurd (List.append_eq_nil_iff.1 huv.symm).2 hv
  | cons c cs ih =>
    have hcons : Blockable (c :: cs) ↔ ¬ tripleQuote <+: c :: cs ++ tripleQuote ∧ Blockable cs := by
      constructor
      · intro h
        refine ⟨h [] (c :: cs) rfl (List.cons_ne_nil c cs), fun u v huv => h (c :: u) v ?_⟩
        rw [huv, List.cons_append]
      · rintro ⟨hfirst, hcs⟩ u v huv hv
        cases u with
        | nil =>
          rw [List.nil_append] at huv
          rwa [← huv]
        | cons d u => exact hcs u v (List.cons.inj huv).2 hv
    have hprefix :
        tripleQuote <+: c :: cs ++ tripleQuote ↔ tripleQuote <+: c :: cs ++ ['"', '"'] := by
      have hquotes : c :: cs ++ ['"', '"'] <+: c :: cs ++ tripleQuote :=
        ⟨['"'], by simp [tripleQuote]⟩
      refine ⟨fun h => List.prefix_of_prefix_length_le h hquotes ?_, fun h => h.trans hquotes⟩
      simp [tripleQuote]
    rw [hcons, hprefix, ih, List.cons_append, List.infix_cons_iff, not_or]

/-! ## The first segment of a text -/

/-- A run of characters of one class ends where the class ends. -/
lemma takeWhile_append_of_head {p : Char → Bool} {cs rest : List Char} (hin : ∀ c ∈ cs, p c = true)
    (hout : ∀ c ∈ rest.head?, p c = false) : (cs ++ rest).takeWhile p = cs := by
  rw [List.takeWhile_append_of_pos hin]
  cases rest with
  | nil => simp
  | cons c rest => simp [hout c rfl]

/-- The first character behind a run is not of its class. -/
lemma head?_dropWhile_eq_false {p : Char → Bool} (cs : List Char) :
    ∀ c ∈ (cs.dropWhile p).head?, p c = false := by
  intro c hc
  have h := List.head?_dropWhile_not p cs
  rw [Option.mem_def.1 hc] at h
  simpa using h

/-- A character differs from one that is outside its class. -/
lemma ne_of_class {p : Char → Bool} {c d : Char} (hc : p c = true) (hd : p d = false) : c ≠ d := by
  rintro rfl
  rw [hc] at hd
  exact Bool.noConfusion hd

/-- A character outside `p` and `#` is not blank, if blank characters are outside `p`. -/
lemma isBlank_eq_false_of_class {p : Char → Bool} {c : Char} (hc : p c = true)
    (hp : p ' ' = false ∧ p '\t' = false ∧ p '\r' = false ∧ p '\n' = false) :
    isBlank c = false := by
  simp [isBlank, ne_of_class hc hp.1, ne_of_class hc hp.2.1, ne_of_class hc hp.2.2.1,
    ne_of_class hc hp.2.2.2]

/-- The first segment of the text `c :: cs`. -/
def segment (c : Char) (cs : List Char) : Lexeme :=
  if isBlank c then .trivia [c]
  else if c = '#' then .trivia ('#' :: cs.takeWhile (· != '\n'))
  else next c cs

/-- In front of a token, the first segment is the lexeme that is read there. -/
lemma segment_eq_next {c : Char} (cs : List Char) (hblank : isBlank c = false) (hhash : c ≠ '#') :
    segment c cs = next c cs := by
  simp [segment, hblank, hhash]

/-- A triple-quoted literal is read as its body says. -/
lemma segment_blockString (cs : List Char) :
    segment '"' ('"' :: '"' :: cs) =
      match blockBody cs with
      | (body, .closed) => .token .blockString (tripleQuote ++ body ++ tripleQuote) body []
      | (body, _) => .token .blockString (tripleQuote ++ body) body [.unterminatedBlockString] :=
  rfl

/-- A quoted literal is read as its body says. -/
lemma segment_string {cs : List Char} (h : ¬ tripleQuote <+: '"' :: cs) :
    segment '"' cs =
      match stringBody cs with
      | (body, .closed) => .token .string ('"' :: body ++ ['"']) body []
      | (body, .line) => .token .string ('"' :: body) body [.multilineString, .unterminatedString]
      | (body, .script) => .token .string ('"' :: body) body [.unterminatedString] := by
  have hquote : segment '"' cs =
      if startsTriple ('"' :: cs) then scanBlockString ('"' :: cs) else scanString ('"' :: cs) :=
    rfl
  rw [hquote, if_neg (mt (startsTriple_iff _).1 h)]
  rfl

/-- A digit is not a letter. -/
lemma isAlpha_eq_false_of_isDigit {c : Char} (h : c.isDigit = true) : c.isAlpha = false := by
  have hdigit : c.val.toNat ≤ 57 := by
    change (decide (c.val ≥ 48) && decide (c.val ≤ 57)) = true at h
    exact UInt32.le_iff_toNat_le.1 (of_decide_eq_true (Bool.and_eq_true_iff.1 h).2)
  by_contra halpha
  have hletter : (65 : UInt32) ≤ c.val ∨ (97 : UInt32) ≤ c.val := by
    change ¬ (decide (c.val ≥ 65 ∧ c.val ≤ 90) || (decide (c.val ≥ 97) && decide (c.val ≤ 122))) =
      false at halpha
    rw [Bool.not_eq_false, Bool.or_eq_true, Bool.and_eq_true] at halpha
    rcases halpha with hupper | hlower
    · exact .inl (of_decide_eq_true hupper).1
    · exact .inr (of_decide_eq_true hlower.1)
  simp only [UInt32.le_iff_toNat_le] at hletter
  have hA : (65 : UInt32).toNat = 65 := rfl
  have ha : (97 : UInt32).toNat = 97 := rfl
  omega

/-- A literal whose body is quotable and is not closed does not start with three quotes in a row. -/
lemma not_tripleQuote_of_quotable {body rest : List Char} (h : Quotable body)
    (hrest : ∀ c ∈ rest.head?, c ≠ '"') : ¬ tripleQuote <+: '"' :: (body ++ rest) := by
  rintro ⟨tail, htail⟩
  have hbody : '"' :: '"' :: tail = body ++ rest := (List.cons.inj htail).2
  cases h with
  | nil =>
    rw [List.nil_append] at hbody
    exact hrest '"' (by rw [← hbody]; rfl) rfl
  | plain hquote => exact hquote (List.cons.inj hbody).1.symm
  | escape c => exact absurd (List.cons.inj hbody).1 (by decide)

/-- **A segment is determined by the text it starts.**

**Proof sketch.** By cases on the segment. Its first character chooses the scanner, and the
condition on the rest is where that scanner stops. -/
lemma Segment.segment_eq {l : Lexeme} {rest : List Char} (h : Segment l rest) :
    ∃ c cs, l.text ++ rest = c :: cs ∧ segment c cs = l := by
  cases h with
  | @blank c _ hblank =>
    refine ⟨c, rest, rfl, ?_⟩
    simp [segment, hblank]
  | @comment body _ hbody hrest =>
    refine ⟨'#', body ++ rest, rfl, ?_⟩
    have hin : ∀ c ∈ body, (c != '\n') = true := fun c hc => by simpa using hbody c hc
    have hout : ∀ c ∈ rest.head?, (c != '\n') = false := by
      intro c hc
      rcases hrest with rfl | hline
      · cases hc
      · rw [hline, Option.mem_some_iff] at hc
        simp [← hc]
    rw [segment, if_neg (by decide), if_pos rfl, takeWhile_append_of_head hin hout]
  | @identifier c cs _ hfirst hpart hrest =>
    refine ⟨c, cs ++ rest, rfl, ?_⟩
    have hblank := isBlank_eq_false_of_class hfirst (by decide)
    have hhash : c ≠ '#' := ne_of_class hfirst (by decide)
    have htake := takeWhile_append_of_head hpart hrest
    simp [segment, next, hblank, hhash, hfirst, scanIdentifier, htake]
  | @number cs _ hne hdigit hrest =>
    obtain ⟨c, cs, rfl⟩ := List.exists_cons_of_ne_nil hne
    refine ⟨c, cs ++ rest, rfl, ?_⟩
    have hc := hdigit c (by simp)
    have hblank := isBlank_eq_false_of_class hc (by decide)
    have hhash : c ≠ '#' := ne_of_class hc (by decide)
    have halpha := isAlpha_eq_false_of_isDigit hc
    have htake := takeWhile_append_of_head hdigit hrest
    rw [List.cons_append] at htake
    rw [segment_eq_next _ hblank hhash]
    simp only [next, scanNumber, htake, hblank, halpha, hc]
    simp [hhash]
  | @blockString body _ hbody =>
    refine ⟨'"', '"' :: '"' :: (body ++ tripleQuote ++ rest), by simp [text, tripleQuote], ?_⟩
    rw [segment_blockString, blockBody_closed hbody]
  | @openBlockString body hbody =>
    refine ⟨'"', '"' :: '"' :: body, by simp [text, tripleQuote], ?_⟩
    rw [segment_blockString, blockBody_open hbody]
  | @string body _ hbody hopen =>
    refine ⟨'"', body ++ '"' :: rest, by simp [text], ?_⟩
    rw [List.cons_append] at hopen
    rw [segment_string hopen, stringBody_append hbody]
    simp [stringBody]
  | @brokenString body rest hbody =>
    refine ⟨'"', body ++ '\n' :: rest, rfl, ?_⟩
    rw [segment_string (not_tripleQuote_of_quotable hbody (by simp)), stringBody_append hbody]
    simp [stringBody]
  | @openString body hbody =>
    refine ⟨'"', body ++ [], rfl, ?_⟩
    rw [segment_string (not_tripleQuote_of_quotable hbody (by simp)), stringBody_append hbody]
    simp [stringBody]
  | @openEscape body hbody =>
    refine ⟨'"', body ++ ['\\'], by simp [text], ?_⟩
    rw [segment_string (not_tripleQuote_of_quotable hbody (by simp)), stringBody_append hbody]
    simp [stringBody]
  | mark m _ =>
    refine ⟨m.char, rest, rfl, ?_⟩
    cases m <;> rfl
  | @unexpected c _ hblank hhash halpha hdigit hquote hmark =>
    refine ⟨c, rest, rfl, ?_⟩
    have hnone : Mark.ofChar? c = none := by
      rw [Option.eq_none_iff_forall_ne_some]
      intro m hm
      exact hmark m (Mark.ofChar?_eq_some_iff.1 hm)
    simp [segment, next, hblank, hhash, halpha, hdigit, hquote, hnone]

/-- **A text starts with at most one segment.** -/
lemma Segment.unique {l l' : Lexeme} {rest rest' : List Char} (h : Segment l rest)
    (h' : Segment l' rest') (heq : l.text ++ rest = l'.text ++ rest') : l = l' ∧ rest = rest' := by
  obtain ⟨c, cs, htext, hl⟩ := h.segment_eq
  obtain ⟨c', cs', htext', hl'⟩ := h'.segment_eq
  have hcs : c :: cs = c' :: cs' := by rw [← htext, ← htext', heq]
  obtain ⟨rfl, rfl⟩ := List.cons.inj hcs
  have hll : l = l' := by rw [← hl, ← hl']
  subst hll
  exact ⟨rfl, List.append_cancel_left heq⟩

/-- **A text that is not empty starts with a segment.**

**Proof sketch.** By the class of the first character. Runs are taken as far as they go; for
literals there are the cases of `quotable_cases` and `blockable_cases`. -/
lemma exists_segment (c : Char) (cs : List Char) :
    ∃ l rest, c :: cs = l.text ++ rest ∧ Segment l rest := by
  by_cases hblank : isBlank c = true
  · exact ⟨_, cs, rfl, .blank cs hblank⟩
  by_cases hhash : c = '#'
  · subst hhash
    refine ⟨.trivia ('#' :: cs.takeWhile (· != '\n')), cs.dropWhile (· != '\n'), ?_, .comment ?_ ?_⟩
    · simp [text]
    · intro c hc
      simpa using List.mem_takeWhile_imp hc
    · cases hrest : cs.dropWhile (· != '\n') with
      | nil => exact .inl rfl
      | cons d ds =>
        have hd := head?_dropWhile_eq_false cs d (by rw [hrest]; rfl)
        right
        simpa using hd
  by_cases halpha : c.isAlpha = true
  · refine ⟨.token .identifier (c :: cs.takeWhile isNamePart) (c :: cs.takeWhile isNamePart) [],
      cs.dropWhile isNamePart, ?_, .identifier halpha ?_ (head?_dropWhile_eq_false cs)⟩
    · simp [text]
    · intro d hd
      exact List.mem_takeWhile_imp hd
  by_cases hdigit : c.isDigit = true
  · refine ⟨.token .number ((c :: cs).takeWhile Char.isDigit) ((c :: cs).takeWhile Char.isDigit) [],
      (c :: cs).dropWhile Char.isDigit, ?_, .number ?_ ?_ (head?_dropWhile_eq_false _)⟩
    · simp [text]
    · simp [hdigit]
    · intro d hd
      exact List.mem_takeWhile_imp hd
  by_cases hquote : c = '"'
  · subst hquote
    by_cases htriple : tripleQuote <+: '"' :: cs
    · obtain ⟨cs', hcs⟩ := htriple
      rw [← hcs]
      rcases blockable_cases cs' with ⟨body, rest, rfl, h⟩ | h
      · exact ⟨_, rest, by simp [text], .blockString rest h⟩
      · exact ⟨_, [], by simp [text], .openBlockString h⟩
    · rcases quotable_cases cs with ⟨body, rest, rfl, h⟩ | ⟨body, rest, rfl, h⟩ | h | ⟨body, rfl, h⟩
      · exact ⟨_, rest, by simp [text], .string h htriple⟩
      · exact ⟨_, '\n' :: rest, by simp [text], .brokenString rest h⟩
      · exact ⟨_, [], by simp [text], .openString h⟩
      · exact ⟨_, [], by simp [text], .openEscape h⟩
  cases hmark : Mark.ofChar? c with
  | some m =>
    obtain rfl := Mark.ofChar?_eq_some_iff.1 hmark
    exact ⟨_, cs, rfl, .mark m cs⟩
  | none =>
    refine ⟨_, cs, rfl, .unexpected cs (by simpa using hblank) hhash (by simpa using halpha)
      (by simpa using hdigit) hquote ?_⟩
    intro m hm
    rw [Mark.ofChar?_eq_some_iff.2 hm] at hmark
    cases hmark

/-! ## The cut of a text -/

/-- **Every text has a cut.** -/
lemma exists_cut (cs : List Char) : ∃ ls, Cut cs ls := by
  induction hn : cs.length using Nat.strongRecOn generalizing cs with
  | _ n ih =>
    subst hn
    cases cs with
    | nil => exact ⟨[], .nil⟩
    | cons c cs =>
      obtain ⟨l, rest, heq, hl⟩ := exists_segment c cs
      have hpos : 0 < l.text.length := List.length_pos_iff.2 hl.text_ne_nil
      have hlt : rest.length < (c :: cs).length := by
        rw [heq, List.length_append]
        omega
      obtain ⟨ls, hls⟩ := ih _ hlt rest rfl
      exact ⟨l :: ls, heq ▸ .cons hl hls⟩

/-- **A text has at most one cut.** -/
lemma Cut.unique {cs : List Char} {ls ls' : List Lexeme} (h : Cut cs ls) (h' : Cut cs ls') :
    ls = ls' := by
  induction h generalizing ls' with
  | nil =>
    generalize hcs : ([] : List Char) = cs at h'
    cases h' with
    | nil => rfl
    | cons hl _ => exact absurd (List.append_eq_nil_iff.1 hcs.symm).1 hl.text_ne_nil
  | @cons l rest ls hl _ ih =>
    generalize hcs : l.text ++ rest = cs at h'
    cases h' with
    | nil => exact absurd (List.append_eq_nil_iff.1 hcs).1 hl.text_ne_nil
    | @cons l' rest' ls' hl' hls' =>
      obtain ⟨rfl, rfl⟩ := hl.unique hl' hcs
      rw [ih hls']

/-! ## Tokens and diagnostics -/

/-- The tokens and the diagnostics of consecutive lexemes, the first of which starts at `p`. -/
def contents (p : Position) (ls : List Lexeme) : List Token × List Diagnostic :=
  (tokensOf p ls, diagnosticsOf p ls)

/-- Trivia contributes nothing. -/
lemma contents_trivia (p : Position) (t : List Char) (ls : List Lexeme) :
    contents p (.trivia t :: ls) = contents (p.after t) ls := rfl

/-- Lexemes that contribute the same behind a first one contribute the same with it. -/
lemma contents_cons_congr {ls ls' : List Lexeme} (l : Lexeme)
    (h : ∀ p, contents p ls = contents p ls') (p : Position) :
    contents p (l :: ls) = contents p (l :: ls') := by
  have hp := Prod.mk.inj (h (p.after l.text))
  simp only [contents, tokensOf, diagnosticsOf, hp.1, hp.2]

/-- The trivia that a text starts with contributes nothing. -/
lemma contents_decompose (p : Position) (cs : List Char) :
    contents p (decompose cs) =
      contents (p.after (leadingTrivia false cs))
        (decompose (cs.drop (leadingTrivia false cs).length)) := by
  cases cs with
  | nil => rfl
  | cons c cs =>
    by_cases htrivia : (isBlank c || c == '#') = true
    · have hnext : next c cs = .trivia (leadingTrivia false (c :: cs)) := by
        rw [next, if_pos htrivia]
        rfl
      rw [decompose_cons, hnext, contents_trivia]
      rfl
    · have hnone : leadingTrivia false (c :: cs) = [] := by
        simp only [Bool.or_eq_true, not_or, Bool.not_eq_true] at htrivia
        simp [leadingTrivia, htrivia.1, htrivia.2]
      rw [hnone]
      rfl

/-- Inside a comment, everything up to the end of the line is trivia. -/
lemma leadingTrivia_comment {body rest : List Char} (hbody : ∀ c ∈ body, c ≠ '\n')
    (hrest : rest = [] ∨ rest.head? = some '\n') :
    leadingTrivia true (body ++ rest) = body ++ leadingTrivia false rest := by
  induction body with
  | nil =>
    rcases hrest with rfl | hline
    · rfl
    · obtain ⟨tail, rfl⟩ : ∃ tail, rest = '\n' :: tail := by
        cases rest with
        | nil => cases hline
        | cons c tail => exact ⟨tail, by rw [Option.some.inj hline]⟩
      rfl
  | cons c body ih =>
    have hc : (c != '\n') = true := by simpa using hbody c (by simp)
    have hrec := ih fun d hd => hbody d (by simp [hd])
    simp only [List.cons_append, leadingTrivia, if_true, hc, hrec]

/-- A trivial segment is trivia in front of the trivia that follows it. -/
lemma Segment.leadingTrivia_append {t rest : List Char} (h : Segment (.trivia t) rest) :
    leadingTrivia false (t ++ rest) = t ++ leadingTrivia false rest := by
  cases h with
  | blank _ hblank => simp [leadingTrivia, hblank]
  | comment hbody hrest =>
    have hcomment := leadingTrivia_comment hbody hrest
    have hblank : isBlank '#' = false := by decide
    simp [leadingTrivia, hblank, hcomment]

/-- A segment that is not trivia is a lexeme of the scanner. -/
lemma Segment.decompose_append {l : Lexeme} {rest : List Char} (h : Segment l rest)
    (hl : ∀ t, l ≠ .trivia t) : decompose (l.text ++ rest) = l :: decompose rest := by
  obtain ⟨c, cs, htext, hsegment⟩ := h.segment_eq
  have hblank : isBlank c = false := by
    by_contra hb
    rw [segment, if_pos (by simpa using hb)] at hsegment
    exact hl _ hsegment.symm
  have hhash : c ≠ '#' := by
    rintro rfl
    rw [segment, if_neg (by decide), if_pos rfl] at hsegment
    exact hl _ hsegment.symm
  rw [segment_eq_next cs hblank hhash] at hsegment
  rw [htext, decompose_cons, hsegment, ← htext, List.drop_left]

/-- **A cut has the tokens and diagnostics of the scanner.**

**Proof sketch.** Induction on the cut. A segment that is not trivia is the first lexeme of the
scanner. A trivial segment is part of its first lexeme, and both contribute nothing. -/
lemma contents_of_cut {cs : List Char} {ls : List Lexeme} (h : Cut cs ls) (p : Position) :
    contents p ls = contents p (decompose cs) := by
  induction h generalizing p with
  | nil => rw [decompose_nil]
  | @cons l rest ls hl _ ih =>
    cases l with
    | trivia t =>
      have htrivia := hl.leadingTrivia_append
      have hdecompose := contents_decompose p (t ++ rest)
      rw [htrivia, List.length_append, ← List.drop_drop, List.drop_left, Position.after_append,
        ← contents_decompose] at hdecompose
      rw [contents_trivia, ih]
      exact hdecompose.symm
    | token kind text value faults =>
      rw [hl.decompose_append (by simp)]
      exact contents_cons_congr _ ih p
    | unexpected c =>
      rw [hl.decompose_append (by simp)]
      exact contents_cons_congr _ ih p

/-- No segment is the end of a script. -/
lemma Segment.kind_ne_eof {kind : TokenKind} {text value rest : List Char} {faults : List Finding}
    (h : Segment (.token kind text value faults) rest) : kind ≠ .eof := by
  cases h with
  | _ => exact TokenKind.noConfusion

/-- No token of a cut is the end of a script. -/
lemma Cut.kind_ne_eof {cs : List Char} {ls : List Lexeme} (h : Cut cs ls) (p : Position) :
    ∀ t ∈ tokensOf p ls, t.kind ≠ .eof := by
  induction h generalizing p with
  | nil => simp [tokensOf]
  | @cons l rest ls hl _ ih =>
    intro t ht
    rw [tokensOf, List.mem_append] at ht
    rcases ht with ht | ht
    · cases l with
      | token kind text value faults =>
        rw [tokenFrom, Option.mem_toList] at ht
        rw [← Option.some.inj ht]
        exact hl.kind_ne_eof
      | trivia t => cases ht
      | unexpected c => cases ht
    · exact ih _ t ht

end Lexeme

/-- The tokens and the lexical diagnostics of a script are those of its cut. -/
lemma contents_tokenize {script : String} {ls : List Lexeme} (h : Lexeme.Cut script.toList ls) :
    (tokenize script).tokens = Lexeme.tokensOf .origin ls ∧
      (tokenize script).diagnostics = Lexeme.diagnosticsOf .origin ls := by
  obtain ⟨htokens, hdiagnostics⟩ := Prod.mk.inj (Lexeme.contents_of_cut h .origin)
  exact ⟨htokens.symm, hdiagnostics.symm⟩

/-- **Reading a script is a lossless cut into the longest pieces.** A script has exactly one cut
into segments, and these are the script, cut into pieces. The tokens of the script are those of the
segments, in their order and at their places, and then the end, which is the only one; the lexical
diagnostics are those of the segments, each over the whole of its segment.

**Proof sketch.** Cuts exist and are unique because first segments do and are. The contents of the
cut are those of the scanner's lexemes by `contents_tokenize`. -/
theorem tokenize_unique_cut (script : String) :
    ∃ ls : List Lexeme, (∀ ls', Lexeme.Cut script.toList ls' ↔ ls' = ls) ∧
      Lexeme.textOf ls = script.toList ∧
      (tokenize script).stream =
        Lexeme.tokensOf .origin ls ++ [.eofAt (Position.origin.after script.toList)] ∧
      (tokenize script).diagnostics = Lexeme.diagnosticsOf .origin ls ∧
      ∀ t ∈ Lexeme.tokensOf .origin ls, t.kind ≠ .eof := by
  obtain ⟨ls, hls⟩ := Lexeme.exists_cut script.toList
  obtain ⟨htokens, hdiagnostics⟩ := contents_tokenize hls
  refine ⟨ls, fun ls' => ⟨fun h => h.unique hls, fun h => h ▸ hls⟩, hls.textOf_eq, ?_,
    hdiagnostics, hls.kind_ne_eof .origin⟩
  rw [Tokenized.stream, htokens]
  rfl

end WorkflowLint
