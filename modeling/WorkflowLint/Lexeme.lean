import WorkflowLint.Diagnostic
import WorkflowLint.Token

/-!
# Lexemes

A script is cut into consecutive lexemes: trivia, token texts and single unexpected characters.
Trivia is blank space and comments, which run from `#` up to the end of their line. Malformed
literals are still tokens; the faults they carry say what is wrong with them.

Each scanner takes the characters that lie ahead and says which of them belong to the lexeme. The
scanners do not look at what they stand on: `Lexeme.next` is what chooses among them.

## Main definitions

* `WorkflowLint.Lexeme` — a stretch of a script, and what it contributes.
* `WorkflowLint.Lexeme.next` — the first lexeme of a non-empty text.
* `WorkflowLint.Lexeme.decompose` — the lexemes of a text.
* `WorkflowLint.tokenize` — the tokens and the lexical diagnostics of a script.

## Main results

* `WorkflowLint.Lexeme.text_next_ne_nil` — a lexeme is never empty, so the decomposition ends.
* `WorkflowLint.Lexeme.textOf_decompose` — the lexemes of a text are the text, cut into pieces.
-/

set_option autoImplicit false

namespace WorkflowLint

/-- A stretch of a script. -/
inductive Lexeme where
  /-- Blank space and comments. -/
  | trivia (text : List Char)
  /-- The text of a token, the value of the token, and what is wrong with it. -/
  | token (kind : TokenKind) (text value : List Char) (faults : List Finding)
  /-- A character that starts no token. -/
  | unexpected (c : Char)
  deriving DecidableEq, Repr, Inhabited

namespace Lexeme

/-! ## What a lexeme contributes -/

/-- The characters of a lexeme. -/
def text : Lexeme → List Char
  | trivia text => text
  | token _ text _ _ => text
  | unexpected c => [c]

/-- What is wrong with a lexeme. -/
def findings : Lexeme → List Finding
  | trivia _ => []
  | token _ _ _ faults => faults
  | unexpected c => [.unexpectedCharacter c]

/-- The range of a lexeme that starts at `p`. -/
def rangeFrom (p : Position) (l : Lexeme) : Range := ⟨p, p.after l.text⟩

/-- The token of a lexeme that starts at `p`, if it has one. -/
def tokenFrom (p : Position) : Lexeme → Option Token
  | l@(token kind _ value _) => some ⟨kind, String.ofList value, l.rangeFrom p⟩
  | _ => none

/-- The diagnostics of a lexeme that starts at `p`. All of them cover the whole lexeme. -/
def diagnosticsFrom (p : Position) (l : Lexeme) : List Diagnostic :=
  l.findings.map fun f => ⟨f, l.rangeFrom p⟩

/-- The characters of consecutive lexemes. -/
def textOf (ls : List Lexeme) : List Char := ls.flatMap text

/-- The tokens of consecutive lexemes, the first of which starts at `p`. -/
def tokensOf (p : Position) : List Lexeme → List Token
  | [] => []
  | l :: ls => (l.tokenFrom p).toList ++ tokensOf (p.after l.text) ls

/-- The diagnostics of consecutive lexemes, the first of which starts at `p`. -/
def diagnosticsOf (p : Position) : List Lexeme → List Diagnostic
  | [] => []
  | l :: ls => l.diagnosticsFrom p ++ diagnosticsOf (p.after l.text) ls

/-! ## Scanners -/

/-- The four characters that separate tokens. -/
def isBlank (c : Char) : Bool := c == ' ' || c == '\t' || c == '\r' || c == '\n'

/-- The characters of a name after its first letter. -/
def isNamePart (c : Char) : Bool := c.isAlphanum || c == '_'

/-- The blank space and the comments that lie ahead. `inComment` says whether a comment is open. -/
def leadingTrivia (inComment : Bool) : List Char → List Char
  | [] => []
  | c :: cs =>
    if inComment then c :: leadingTrivia (c != '\n') cs
    else if isBlank c then c :: leadingTrivia false cs
    else if c == '#' then c :: leadingTrivia true cs
    else []

/-- Does the text start with three quotes? -/
def startsTriple : List Char → Bool
  | '"' :: '"' :: '"' :: _ => true
  | _ => false

/-- What ends the body of a literal. -/
inductive Ending where
  /-- The closing quotes. -/
  | closed
  /-- The end of the line. -/
  | line
  /-- The end of the script. -/
  | script
  deriving DecidableEq, Repr

/-- The body of a quoted literal. A backslash and the character behind it belong together, so
neither an escaped quote nor an escaped line feed ends the body. -/
def stringBody : List Char → List Char × Ending
  | [] => ([], .script)
  | '"' :: _ => ([], .closed)
  | '\n' :: _ => ([], .line)
  | ['\\'] => (['\\'], .script)
  | '\\' :: c :: cs =>
    let (body, ending) := stringBody cs
    ('\\' :: c :: body, ending)
  | c :: cs =>
    let (body, ending) := stringBody cs
    (c :: body, ending)

/-- The body of a triple-quoted literal: everything up to the first three quotes in a row. -/
def blockBody : List Char → List Char × Ending
  | [] => ([], .script)
  | c :: cs =>
    if startsTriple (c :: cs) then ([], .closed)
    else
      let (body, ending) := blockBody cs
      (c :: body, ending)

/-- The trivia that lies ahead. -/
def scanTrivia (cs : List Char) : Lexeme := .trivia (leadingTrivia false cs)

/-- A name: one character, and all name characters behind it. -/
def scanIdentifier (cs : List Char) : Lexeme :=
  let text := cs.take 1 ++ (cs.drop 1).takeWhile isNamePart
  .token .identifier text text []

/-- A number: all digits that lie ahead. -/
def scanNumber (cs : List Char) : Lexeme :=
  let text := cs.takeWhile Char.isDigit
  .token .number text text []

/-- A quoted literal: one character as the opening quote, the body, and the closing quote. A body
that ends otherwise is the text of a faulty literal. -/
def scanString (cs : List Char) : Lexeme :=
  let opening := cs.take 1
  match stringBody (cs.drop 1) with
  | (body, .closed) => .token .string (opening ++ body ++ ['"']) body []
  | (body, .line) => .token .string (opening ++ body) body [.multilineString, .unterminatedString]
  | (body, .script) => .token .string (opening ++ body) body [.unterminatedString]

/-- A triple-quoted literal: three characters as the opening quotes, the body, and the closing
quotes. Nothing in the body is special. -/
def scanBlockString (cs : List Char) : Lexeme :=
  let opening := cs.take 3
  match blockBody (cs.drop 3) with
  | (body, .closed) => .token .blockString (opening ++ body ++ ['"', '"', '"']) body []
  | (body, _) => .token .blockString (opening ++ body) body [.unterminatedBlockString]

/-- The first lexeme of the text `c :: cs`. -/
def next (c : Char) (cs : List Char) : Lexeme :=
  if isBlank c || c == '#' then scanTrivia (c :: cs)
  else if c.isAlpha then scanIdentifier (c :: cs)
  else if c.isDigit then scanNumber (c :: cs)
  else if c == '"' then
    if startsTriple (c :: cs) then scanBlockString (c :: cs) else scanString (c :: cs)
  else
    match Mark.ofChar? c with
    | some m => .token (.mark m) [c] [c] []
    | none => .unexpected c

/-- A lexeme is never empty. -/
theorem text_next_ne_nil (c : Char) (cs : List Char) : (next c cs).text ≠ [] := by
  unfold next
  split
  · rename_i h
    cases hb : isBlank c <;> simp_all [scanTrivia, text, leadingTrivia]
  split
  · simp [scanIdentifier, text]
  split
  · rename_i h
    simp [scanNumber, text, h]
  split
  · split
    · unfold scanBlockString
      split <;> simp [text]
    · unfold scanString
      split <;> simp [text]
  · split <;> simp [text]

/-! ## A lexeme is the start of its text -/

theorem leadingTrivia_isPrefix (inComment : Bool) (cs : List Char) :
    leadingTrivia inComment cs <+: cs := by
  fun_induction leadingTrivia inComment cs with
  | case1 => exact List.prefix_rfl
  | case2 c cs ih => exact (List.prefix_cons_inj c).2 ih
  | case3 _ c cs _ _ ih => exact (List.prefix_cons_inj c).2 ih
  | case4 _ c cs _ _ _ ih => exact (List.prefix_cons_inj c).2 ih
  | case5 => exact List.nil_prefix

/-- The characters that end a literal, as far as they are part of it. -/
def Ending.quotes (closing : List Char) : Ending → List Char
  | .closed => closing
  | _ => []

theorem stringBody_isPrefix (cs : List Char) :
    (stringBody cs).1 ++ (stringBody cs).2.quotes ['"'] <+: cs := by
  fun_induction stringBody cs with
  | case1 => exact List.prefix_rfl
  | case2 cs => exact ⟨cs, rfl⟩
  | case3 cs => exact List.nil_prefix
  | case4 => exact List.prefix_rfl
  | case5 c cs body ending h ih => simpa [h, List.prefix_cons_inj] using ih
  | case6 c cs _ _ _ _ body ending h ih => simpa [h, List.prefix_cons_inj] using ih

theorem blockBody_isPrefix (cs : List Char) :
    (blockBody cs).1 ++ (blockBody cs).2.quotes ['"', '"', '"'] <+: cs := by
  fun_induction blockBody cs with
  | case1 => exact List.prefix_rfl
  | case2 c cs h =>
    unfold startsTriple at h
    split at h
    · rename_i cs' heq
      simp [Ending.quotes, heq]
    · simp at h
  | case3 c cs _ body ending h ih => simpa [h, List.prefix_cons_inj] using ih

theorem text_scanString_isPrefix (cs : List Char) : (scanString cs).text <+: cs := by
  have h := (List.prefix_append_right_inj (cs.take 1)).2 (stringBody_isPrefix (cs.drop 1))
  rw [List.take_append_drop] at h
  unfold scanString
  split <;> rename_i body heq <;> rw [heq] at h <;> simpa [text, Ending.quotes] using h

theorem text_scanBlockString_isPrefix (cs : List Char) : (scanBlockString cs).text <+: cs := by
  have h := (List.prefix_append_right_inj (cs.take 3)).2 (blockBody_isPrefix (cs.drop 3))
  rw [List.take_append_drop] at h
  unfold scanBlockString
  split
  · rename_i body heq
    rw [heq] at h
    simpa [text, Ending.quotes] using h
  · rename_i body ending _ heq
    rw [heq, ← List.append_assoc] at h
    exact (List.prefix_append _ _).trans h

theorem text_scanIdentifier_isPrefix (cs : List Char) : (scanIdentifier cs).text <+: cs := by
  have h := (List.prefix_append_right_inj (cs.take 1)).2
    (List.takeWhile_prefix isNamePart (l := cs.drop 1))
  rwa [List.take_append_drop] at h

/-- A lexeme is the start of the text it was read from. -/
theorem text_next_isPrefix (c : Char) (cs : List Char) : (next c cs).text <+: c :: cs := by
  unfold next
  split
  · exact leadingTrivia_isPrefix false _
  split
  · exact text_scanIdentifier_isPrefix _
  split
  · exact List.takeWhile_prefix _
  split
  · split
    · exact text_scanBlockString_isPrefix _
    · exact text_scanString_isPrefix _
  · split <;> exact ⟨cs, rfl⟩

/-! ## The decomposition of a text -/

/-- The lexemes of a text, in order. -/
def decompose : List Char → List Lexeme
  | [] => []
  | c :: cs =>
    let l := next c cs
    l :: decompose ((c :: cs).drop l.text.length)
termination_by cs => cs.length
decreasing_by
  have := List.length_pos_iff.2 (text_next_ne_nil c cs)
  simp only [List.length_drop, List.length_cons]
  omega

@[simp] theorem decompose_nil : decompose [] = [] := by
  rw [decompose]

theorem decompose_cons (c : Char) (cs : List Char) :
    decompose (c :: cs) =
      next c cs :: decompose ((c :: cs).drop (next c cs).text.length) := by
  rw [decompose]

/-- The lexemes of a text are the text, cut into pieces. -/
@[simp] theorem textOf_decompose (cs : List Char) : textOf (decompose cs) = cs := by
  fun_induction decompose cs with
  | case1 => rfl
  | case2 c cs l ih =>
    obtain ⟨rest, hrest⟩ := text_next_isPrefix c cs
    have hl : l.text ++ rest = c :: cs := hrest
    rw [textOf, List.flatMap_cons, ← textOf, ih, ← hl, List.drop_left]

end Lexeme

/-! ## Tokens of a script -/

/-- The tokens of a script before its end, the end, and what the lexer has to complain about. -/
structure Tokenized where
  /-- The tokens before the end, in order. -/
  tokens : List Token
  /-- The end of the script. -/
  eof : Token
  /-- The lexical diagnostics, in order. -/
  diagnostics : List Diagnostic
  deriving DecidableEq, Repr, Inhabited

/-- All tokens, the end included. -/
def Tokenized.stream (t : Tokenized) : List Token := t.tokens ++ [t.eof]

/-- Read a script as tokens. -/
def tokenize (script : String) : Tokenized :=
  let cs := script.toList
  let ls := Lexeme.decompose cs
  { tokens := Lexeme.tokensOf .origin ls
    eof := .eofAt (Position.origin.after cs)
    diagnostics := Lexeme.diagnosticsOf .origin ls }

end WorkflowLint
