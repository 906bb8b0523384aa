import Mathlib.Algebra.GroupWithZero.Nat
import Mathlib.Data.List.DropRight
import WorkflowLint.Proofs.Continuation

/-!
# Ranges and the text they cover

A range is a pair of places, and a place is a line and a column. Here places are tied to offsets
into the text: `Position.ofOffset` counts the line feeds of the first so many characters and the
UTF-16 code units behind the last of them. It is a formula, not a counter that is carried along, and
different offsets have different places.

Every range that is reported covers a piece of the cut of the script, from its first character to
its last, or is the empty range at the end of the script.

## Main definitions

* `WorkflowLint.Position.Before` — the strict reading order.
* `WorkflowLint.Position.ofOffset` — the place of an offset.
* `WorkflowLint.Lexeme.Stretch` — what may lie between the two ends of a range.
* `WorkflowLint.Range.Denotes` — a range covers such a stretch of a text.

## Main results

* `WorkflowLint.Position.after_eq_ofOffset` — counting along a text gives the place of its length.
* `WorkflowLint.Position.ofOffset_before` — places are in the order of their offsets.
* `WorkflowLint.denotes_of_mem_lint` — every range that is reported covers a stretch of the script.
* `WorkflowLint.stream_pairwise`, `WorkflowLint.before_of_mem_tokens` — tokens do not overlap, and
  none but the end is empty.
* `WorkflowLint.lint_ranges_denote_text` — all of this for the diagnostics of a script.
-/

set_option autoImplicit false

namespace WorkflowLint

/-! ## Places of offsets -/

namespace Position

/-- Does `p` come strictly before `q` in the reading order? -/
def Before (p q : Position) : Prop :=
  p.line < q.line ∨ (p.line = q.line ∧ p.character < q.character)

/-- The number of UTF-16 code units of a text. -/
def unitsOf (cs : List Char) : Nat := (cs.map units).sum

/-- The place behind the first `k` characters of a text: the number of line feeds among them, and
the number of code units behind the last of these. -/
def ofOffset (text : List Char) (k : Nat) : Position :=
  ⟨(text.take k).count '\n', unitsOf ((text.take k).rtakeWhile (· != '\n'))⟩

lemma units_pos (c : Char) : 0 < units c := by
  unfold units
  split <;> omega

/-- A character takes up room. -/
lemma before_advance (p : Position) (c : Char) : p.Before (p.advance c) := by
  have hpos := units_pos c
  unfold Before advance
  split
  · left
    exact Int.lt_succ p.line
  · right
    simp only [true_and]
    omega

lemma Before.trans {p q r : Position} (hpq : p.Before q) (hqr : q.Before r) : p.Before r := by
  unfold Before at *
  omega

lemma Before.le {p q : Position} (h : p.Before q) : p.le q = true := by
  rw [le_iff]
  unfold Before at h
  omega

lemma Before.trans_le {p q r : Position} (hpq : p.Before q) (hqr : q.le r = true) : p.Before r := by
  rw [le_iff] at hqr
  unfold Before at *
  omega

/-- A text that is not empty takes up room. -/
lemma before_after {cs : List Char} (h : cs ≠ []) (p : Position) : p.Before (p.after cs) := by
  induction cs generalizing p with
  | nil => exact absurd rfl h
  | cons c cs ih =>
    rw [after_cons]
    by_cases hcs : cs = []
    · rw [hcs, after_nil]
      exact before_advance p c
    · exact (before_advance p c).trans (ih hcs _)

lemma le_after (p : Position) (cs : List Char) : p.le (p.after cs) = true := by
  by_cases h : cs = []
  · rw [h, after_nil, le_iff]
    omega
  · exact (before_after h p).le

/-- **Counting along a text gives the place of its length.**

**Proof sketch.** Induction on the text from its end. A line feed starts a line on which nothing
stands so far; any other character adds its code units to the last line. -/
lemma origin_after (cs : List Char) :
    origin.after cs = ⟨cs.count '\n', unitsOf (cs.rtakeWhile (· != '\n'))⟩ := by
  induction cs using List.reverseRecOn with
  | nil => rfl
  | append_singleton cs c ih =>
    rw [after_append, ih, after_cons, after_nil, advance, List.count_append, List.rtakeWhile_concat]
    by_cases hc : c = '\n'
    · subst hc
      simp [unitsOf]
    · have hne : (c != '\n') = true := by simpa using hc
      have hcount : List.count '\n' [c] = 0 := List.count_eq_zero.2 (by simpa using Ne.symm hc)
      rw [if_neg hc, if_pos hne, hcount, Nat.add_zero]
      simp [unitsOf]

lemma after_eq_ofOffset (text : List Char) (k : Nat) :
    origin.after (text.take k) = ofOffset text k :=
  origin_after _

/-- **Places are in the order of their offsets.** -/
lemma ofOffset_before {text : List Char} {i j : Nat} (hij : i < j) (hj : j ≤ text.length) :
    (ofOffset text i).Before (ofOffset text j) := by
  have hsplit : text.take j = text.take i ++ (text.take j).drop i := by
    have htake : (text.take j).take i = text.take i := by
      rw [List.take_take, Nat.min_eq_left (by omega)]
    rw [← htake, List.take_append_drop]
  have hne : (text.take j).drop i ≠ [] := by
    rw [← List.length_pos_iff, List.length_drop, List.length_take]
    omega
  rw [← after_eq_ofOffset, ← after_eq_ofOffset, hsplit, after_append]
  exact before_after hne _

end Position

/-! ## Stretches of a text -/

namespace Lexeme

/-- `StartsAt text i l`: the lexeme `l` is a piece of the cut of the text, and starts at the
offset `i`. -/
def StartsAt (text : List Char) (i : Nat) (l : Lexeme) : Prop :=
  ∃ before after, Cut text (before ++ l :: after) ∧ (textOf before).length = i

/-- The characters of a text from the offset `i` up to the offset `j`. -/
def slice (text : List Char) (i j : Nat) : List Char := (text.take j).drop i

/-- What may lie between the two ends of a range. -/
inductive Stretch (text : List Char) (i j : Nat) : Prop
  /-- A whole token, with its quotes if it is a literal. -/
  | token {kind : TokenKind} {value : List Char} :
      StartsAt text i (.token kind (slice text i j) value []) → Stretch text i j
  /-- A literal without its closing quotes. -/
  | openLiteral {kind : TokenKind} {value : List Char} {faults : List Finding} :
      kind ∈ TokenKind.literals → IsOpen (.token kind (slice text i j) value faults) →
        StartsAt text i (.token kind (slice text i j) value faults) → Stretch text i j
  /-- A single character that starts no token. -/
  | unexpected {c : Char} :
      slice text i j = [c] → StartsAt text i (.unexpected c) → Stretch text i j
  /-- Nothing, at the end of the text. -/
  | ending : i = text.length → j = text.length → Stretch text i j

/-- A token with faults is a literal without its closing quotes. -/
lemma Segment.faults_cases {kind : TokenKind} {text value rest : List Char} {faults : List Finding}
    (h : Segment (.token kind text value faults) rest) :
    faults = [] ∨ (kind ∈ TokenKind.literals ∧ IsOpen (.token kind text value faults)) := by
  cases h with
  | openBlockString _ => exact .inr ⟨by decide, .inr (List.mem_singleton.2 rfl)⟩
  | brokenString _ _ => exact .inr ⟨by decide, .inl (by simp [findings])⟩
  | openString _ => exact .inr ⟨by decide, .inl (List.mem_singleton.2 rfl)⟩
  | openEscape _ => exact .inr ⟨by decide, .inl (List.mem_singleton.2 rfl)⟩
  | _ => exact .inl rfl

end Lexeme

open Lexeme in
/-- The range `r` goes from the place of an offset to the place of another, and covers a stretch of
the text. -/
def Range.Denotes (text : List Char) (r : Range) : Prop :=
  ∃ i j, i ≤ j ∧ j ≤ text.length ∧
    r = ⟨Position.ofOffset text i, Position.ofOffset text j⟩ ∧ Stretch text i j

namespace Lexeme

/-- **A piece of the cut is covered by its range.** -/
lemma Cut.denotes {text : List Char} {before after : List Lexeme} {l : Lexeme}
    (h : Cut text (before ++ l :: after)) (hl : ∀ t, l ≠ .trivia t) :
    (l.rangeFrom (Position.origin.after (textOf before))).Denotes text := by
  have htext : text = textOf before ++ (l.text ++ textOf after) := by
    rw [← h.textOf_eq]
    simp [textOf]
  have hstart : text.take (textOf before).length = textOf before := by
    rw [htext, List.take_left]
  have hstop : text.take ((textOf before).length + l.text.length) = textOf before ++ l.text := by
    rw [htext, ← List.append_assoc, ← List.length_append, List.take_left]
  have hslice : slice text (textOf before).length ((textOf before).length + l.text.length) =
      l.text := by
    rw [slice, hstop, List.drop_left]
  have hat : StartsAt text (textOf before).length l := ⟨before, after, h, rfl⟩
  refine ⟨(textOf before).length, (textOf before).length + l.text.length, Nat.le_add_right _ _,
    ?_, ?_, ?_⟩
  · rw [htext, List.length_append, List.length_append]
    omega
  · rw [← Position.after_eq_ofOffset, ← Position.after_eq_ofOffset, hstart, hstop,
      Position.after_append]
    rfl
  · cases l with
    | trivia t => exact absurd rfl (hl t)
    | unexpected c => exact .unexpected hslice hat
    | token kind w value faults =>
      obtain ⟨rest, hsegment⟩ := h.segment_of_mem (l := .token kind w value faults) (by simp)
      replace hslice : slice text _ _ = w := hslice
      rcases hsegment.faults_cases with rfl | ⟨hkind, hopen⟩
      · exact .token (hslice.symm ▸ hat)
      · exact .openLiteral hkind (hslice.symm ▸ hopen) (hslice.symm ▸ hat)

end Lexeme

/-! ## What is reported -/

/-- The tokens of a script are covered by their ranges. -/
lemma denotes_of_mem_tokens {script : String} {t : Token} (h : t ∈ (tokenize script).tokens) :
    t.range.Denotes script.toList := by
  obtain ⟨ls, hls⟩ := Lexeme.exists_cut script.toList
  rw [(contents_tokenize hls).1] at h
  obtain ⟨before, l, after, rfl, ht⟩ := Lexeme.exists_of_mem_tokensOf h
  cases l with
  | token kind text value faults =>
    rw [← Option.some.inj ht]
    exact hls.denotes (by simp)
  | trivia text => cases ht
  | unexpected c => cases ht

/-- The end of a script is the empty range behind its last character. -/
lemma denotes_eof (script : String) : (tokenize script).eof.range.Denotes script.toList := by
  refine ⟨_, _, Nat.le_refl _, Nat.le_refl _, ?_, .ending rfl rfl⟩
  rw [← Position.after_eq_ofOffset, List.take_length]
  rfl

/-- Lexical diagnostics are about pieces of the cut that are not trivia. -/
lemma denotes_of_mem_diagnostics {script : String} {d : Diagnostic}
    (h : d ∈ (tokenize script).diagnostics) : d.range.Denotes script.toList := by
  obtain ⟨ls, hls⟩ := Lexeme.exists_cut script.toList
  rw [(contents_tokenize hls).2] at h
  obtain ⟨before, l, after, rfl, hd⟩ := Lexeme.exists_of_mem_diagnosticsOf h
  obtain ⟨f, hf, rfl⟩ := List.mem_map.1 hd
  refine hls.denotes ?_
  rintro t rfl
  cases hf

/-- **Every range that is reported covers a stretch of the script.** -/
lemma denotes_of_mem_lint {script : String} {d : Diagnostic} (h : d ∈ lint script) :
    d.range.Denotes script.toList := by
  obtain ⟨new, hnew, hranges⟩ := Check.range_of_mem_finish
    (p := Range.Denotes script.toList) (s := .ofTokenized (tokenize script))
    (fun t ht => denotes_of_mem_tokens ht) (denotes_eof script)
  rw [mem_lint_iff, hnew, List.mem_append] at h
  rcases h with h | h
  · exact hranges d h
  · exact denotes_of_mem_diagnostics (List.mem_reverse.1 h)

/-! ## The order of tokens -/

namespace Lexeme

/-- Tokens lie between the start of the first lexeme and the end of the last. -/
lemma bounds_of_mem_tokensOf {t : Token} {ls : List Lexeme} {p : Position}
    (h : t ∈ tokensOf p ls) :
    p.le t.range.start = true ∧ t.range.stop.le (p.after (textOf ls)) = true := by
  obtain ⟨before, l, after, rfl, ht⟩ := exists_of_mem_tokensOf h
  have htext : textOf (before ++ l :: after) = textOf before ++ l.text ++ textOf after := by
    simp [textOf]
  cases l with
  | token kind text value faults =>
    rw [← Option.some.inj ht, htext, Position.after_append, Position.after_append]
    exact ⟨Position.le_after _ _, Position.le_after _ _⟩
  | trivia text => cases ht
  | unexpected c => cases ht

/-- Each token ends at or before the start of those behind it. -/
lemma tokensOf_pairwise (p : Position) (ls : List Lexeme) :
    (tokensOf p ls).Pairwise fun t u => t.range.stop.le u.range.start = true := by
  induction ls generalizing p with
  | nil => exact .nil
  | cons l ls ih =>
    rw [tokensOf, List.pairwise_append]
    refine ⟨?_, ih _, fun t ht u hu => ?_⟩
    · cases l with
      | token kind text value faults => exact List.pairwise_singleton _ _
      | trivia text => exact .nil
      | unexpected c => exact .nil
    · cases l with
      | token kind text value faults =>
        rw [Option.mem_toList] at ht
        rw [← Option.some.inj ht]
        exact (bounds_of_mem_tokensOf hu).1
      | trivia text => cases ht
      | unexpected c => cases ht

end Lexeme

/-- **Tokens do not overlap**: each ends at or before the start of those behind it. -/
lemma stream_pairwise (script : String) :
    (tokenize script).stream.Pairwise fun t u => t.range.stop.le u.range.start = true := by
  rw [Tokenized.stream, List.pairwise_append]
  refine ⟨Lexeme.tokensOf_pairwise _ _, List.pairwise_singleton _ _, fun t ht u hu => ?_⟩
  have hstop := (Lexeme.bounds_of_mem_tokensOf ht).2
  rw [Lexeme.textOf_decompose] at hstop
  rw [List.mem_singleton.1 hu]
  exact hstop

/-- **Tokens in front of the end are not empty.** -/
lemma before_of_mem_tokens {script : String} {t : Token} (h : t ∈ (tokenize script).tokens) :
    t.range.start.Before t.range.stop := by
  obtain ⟨ls, hls⟩ := Lexeme.exists_cut script.toList
  rw [(contents_tokenize hls).1] at h
  obtain ⟨before, l, after, rfl, ht⟩ := Lexeme.exists_of_mem_tokensOf h
  obtain ⟨rest, hsegment⟩ := hls.segment_of_mem (l := l) (by simp)
  cases l with
  | token kind text value faults =>
    rw [← Option.some.inj ht]
    exact Position.before_after hsegment.text_ne_nil _
  | trivia text => cases ht
  | unexpected c => cases ht

/-- **Every range denotes text of the script.** Places are in the order of their offsets. Each
diagnostic covers, from offset to offset, a whole token, a literal that is left open, a character
that starts no token, or nothing at the end of the script. Tokens do not overlap, and none but the
end is empty.

**Proof sketch.** A check reports on its tokens and on the end only, and lexical diagnostics are
about pieces of the cut; counting along the pieces in front of one gives the place of their
length. -/
theorem lint_ranges_denote_text (script : String) :
    (∀ i j, i < j → j ≤ script.toList.length →
        (Position.ofOffset script.toList i).Before (Position.ofOffset script.toList j)) ∧
      (∀ d ∈ lint script, ∃ i j, i ≤ j ∧ j ≤ script.toList.length ∧
        d.range.start = Position.ofOffset script.toList i ∧
        d.range.stop = Position.ofOffset script.toList j ∧ Lexeme.Stretch script.toList i j) ∧
      (tokenize script).stream.Pairwise (fun t u => t.range.stop.le u.range.start = true) ∧
      ∀ t ∈ (tokenize script).stream, t.kind ≠ .eof → t.range.start.Before t.range.stop := by
  refine ⟨fun i j => Position.ofOffset_before, fun d hd => ?_, stream_pairwise script,
    fun t ht hkind => ?_⟩
  · obtain ⟨i, j, hij, hj, hrange, hstretch⟩ := denotes_of_mem_lint hd
    rw [hrange]
    exact ⟨i, j, hij, hj, rfl, rfl, hstretch⟩
  · rcases List.mem_append.1 ht with ht | ht
    · exact before_of_mem_tokens ht
    · rw [List.mem_singleton.1 ht] at hkind
      exact absurd rfl hkind

end WorkflowLint
