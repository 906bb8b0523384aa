/-!
# Wildcards

Patterns for single names: `*` stands for any text, `?` for any character, and a set in brackets for
any of its characters. There are no escapes; a bracket that is never closed stands for itself.

## Main definitions

* `WorkflowLint.Glob.CharSet` — a bracketed set.
* `WorkflowLint.Glob.Wildcard.ofChars` — read a pattern.
* `WorkflowLint.Glob.Wildcard.accepts` — does a name fit?

## Main results

* `WorkflowLint.Glob.Wildcard.accepts_star_cons`, `WorkflowLint.Glob.Wildcard.accepts_oneOf_cons` —
  what fits a pattern, step by step and character by character.
-/

set_option autoImplicit false

namespace WorkflowLint.Glob

/-! ## Sets of characters -/

/-- Part of a bracketed set: the characters from `first` to `last`. A character on its own is a
span from itself to itself. -/
structure Span where
  /-- The least character. -/
  first : Char
  /-- The greatest character. -/
  last : Char
  deriving DecidableEq, Repr

/-- The span of one character. -/
def Span.single (c : Char) : Span := ⟨c, c⟩

/-- Does the span hold `c`? A span whose ends are in the wrong order holds nothing. -/
def Span.holds (s : Span) (c : Char) : Bool := decide (s.first ≤ c) && decide (c ≤ s.last)

/-- A set of characters, or its complement. -/
structure CharSet where
  /-- Are the characters outside the spans meant? -/
  complemented : Bool
  /-- The spans. -/
  spans : List Span
  deriving DecidableEq, Repr

namespace CharSet

/-- Does the set hold `c`? -/
def holds (s : CharSet) (c : Char) : Bool := s.complemented != s.spans.any fun p => p.holds c

/-- Read the inside of a pair of brackets, from left to right. A hyphen between two characters makes a
span of them; a hyphen that has no character on one side stands for itself. A mark says whether
a span was written with a hyphen. -/
def readSpans : List Char → List (Bool × Span)
  | a :: '-' :: b :: cs => (true, ⟨a, b⟩) :: readSpans cs
  | a :: cs => (false, .single a) :: readSpans cs
  | [] => []

/-- Read the inside of a pair of brackets. A leading exclamation mark is read on its own. -/
def readInside : List Char → List (Bool × Span)
  | '!' :: cs => (false, .single '!') :: readSpans cs
  | cs => readSpans cs

/-- The set with the given inside. Spans that hold nothing are dropped first; if what is left starts
with an exclamation mark, the complement of the rest is meant. A hyphen behind that mark stands
for itself. -/
def ofInside (cs : List Char) : CharSet :=
  match (readInside cs).filter fun p => decide (p.2.first ≤ p.2.last) with
  | (false, ⟨'!', _⟩) :: rest => ⟨true, rest.map Prod.snd⟩
  | (true, ⟨'!', last⟩) :: rest => ⟨true, .single '-' :: .single last :: rest.map Prod.snd⟩
  | spans => ⟨false, spans.map Prod.snd⟩

/-- The inside of the brackets that were opened just before `cs`, and what follows the closing
bracket. A bracket that comes first, possibly behind an exclamation mark, does not close. -/
def splitInside (cs : List Char) : Option (List Char × List Char) :=
  let (mark, cs) := match cs with
    | '!' :: rest => (['!'], rest)
    | _ => ([], cs)
  let (bracket, cs) := match cs with
    | ']' :: rest => ([']'], rest)
    | _ => ([], cs)
  match cs.dropWhile (· != ']') with
  | [] => none
  | _ :: rest => some (mark ++ bracket ++ cs.takeWhile (· != ']'), rest)

theorem length_splitInside {cs inside rest : List Char}
    (h : splitInside cs = some (inside, rest)) : rest.length < cs.length := by
  have hd (xs : List Char) : (xs.dropWhile (· != ']')).length ≤ xs.length :=
    (List.dropWhile_sublist _).length_le
  unfold splitInside at h
  split at h
  rename_i mark cs₁ h₁
  split at h
  rename_i bracket cs₂ h₂
  have h₁ : cs₁.length ≤ cs.length := by
    split at h₁ <;> obtain ⟨-, rfl⟩ := Prod.mk.inj h₁ <;> simp
  have h₂ : cs₂.length ≤ cs₁.length := by
    split at h₂ <;> obtain ⟨-, rfl⟩ := Prod.mk.inj h₂ <;> simp
  have := hd cs₂
  split at h
  · simp at h
  · rename_i heq
    simp only [Option.some.injEq, Prod.mk.injEq] at h
    rw [heq] at this
    simp only [List.length_cons, h.2] at this
    omega

end CharSet

/-! ## Patterns for names -/

/-- A step of a pattern. -/
inductive WildcardStep where
  /-- Any text. -/
  | star
  /-- Any character of a set. -/
  | oneOf (set : CharSet)
  deriving DecidableEq, Repr

/-- A pattern for a name. -/
abbrev Wildcard := List WildcardStep

namespace Wildcard

/-- The step that accepts `c` only. -/
def literal (c : Char) : WildcardStep := .oneOf ⟨false, [.single c]⟩

/-- The step that accepts any one character. -/
def any : WildcardStep := .oneOf ⟨true, []⟩

/-- Read a pattern. -/
def ofChars : List Char → Wildcard
  | [] => []
  | '*' :: cs => .star :: ofChars cs
  | '?' :: cs => any :: ofChars cs
  | '[' :: cs =>
    match h : CharSet.splitInside cs with
    | some (inside, rest) =>
      have := CharSet.length_splitInside h
      .oneOf (.ofInside inside) :: ofChars rest
    | none => literal '[' :: ofChars cs
  | c :: cs => literal c :: ofChars cs
termination_by cs => cs.length

/-- For each end of a list, the whole list first: is there a mark at its start or further on? -/
def orLater : List Bool → List Bool
  | [] => []
  | b :: bs =>
    let later := orLater bs
    (b || later.headD false) :: later

/-- For each end of a name, the whole name first and the empty one last: does it fit the pattern?
A row is worked out from the row of the steps that follow, so the work is bounded by the product
of the two lengths, however many stars there are. -/
def row : Wildcard → List Char → List Bool
  | [], cs => cs.map (fun _ => false) ++ [true]
  | .star :: steps, cs => orLater (row steps cs)
  | .oneOf set :: steps, cs =>
    List.zipWith (fun c fits => set.holds c && fits) cs (row steps cs).tail ++ [false]

/-- Does a name fit a pattern? -/
def accepts (w : Wildcard) (cs : List Char) : Bool := (row w cs).headD false

@[simp] theorem length_orLater (bs : List Bool) : (orLater bs).length = bs.length := by
  induction bs with
  | nil => rfl
  | cons b bs ih => simp [orLater, ih]

/-- A row has an entry for each end of the name. -/
@[simp] theorem length_row (w : Wildcard) (cs : List Char) : (row w cs).length = cs.length + 1 := by
  induction w with
  | nil => simp [row]
  | cons step steps ih => cases step <;> simp [row, ih]

/-- The entries behind the first are those of the rest of the name. -/
theorem tail_row (w : Wildcard) (c : Char) (cs : List Char) : (row w (c :: cs)).tail = row w cs := by
  induction w with
  | nil => rfl
  | cons step steps ih =>
    obtain ⟨b, bs, h⟩ := List.exists_cons_of_length_eq_add_one (length_row steps (c :: cs))
    have hbs : bs = row steps cs := by rw [← ih, h, List.tail_cons]
    obtain ⟨b', bs', h'⟩ := List.exists_cons_of_length_eq_add_one (length_row steps cs)
    cases step with
    | star => simp only [row, h, hbs, orLater, List.tail_cons]
    | oneOf set => simp [row, h, hbs, h']

/-- A row starts with the answer for the name itself. -/
theorem row_cons (w : Wildcard) (c : Char) (cs : List Char) :
    row w (c :: cs) = accepts w (c :: cs) :: row w cs := by
  obtain ⟨b, bs, h⟩ := List.exists_cons_of_length_eq_add_one (length_row w (c :: cs))
  rw [accepts, ← tail_row w c cs, h, List.headD_cons, List.tail_cons]

/-- The row of the empty name is the answer for it. -/
theorem row_nil (w : Wildcard) : row w [] = [accepts w []] := by
  obtain ⟨b, h⟩ := List.length_eq_one_iff.mp (length_row w [])
  rw [accepts, h, List.headD_cons]

/-- Only the empty name fits the empty pattern. -/
@[simp] theorem accepts_nil (cs : List Char) : accepts [] cs = cs.isEmpty := by
  cases cs <;> rfl

/-- At the end of a name a star fits nothing more. -/
@[simp] theorem accepts_star_nil (w : Wildcard) : accepts (.star :: w) [] = accepts w [] := by
  rw [accepts, row, row_nil]
  exact Bool.or_false _

/-- A star fits no text, or a character and what another star fits. -/
@[simp] theorem accepts_star_cons (w : Wildcard) (c : Char) (cs : List Char) :
    accepts (.star :: w) (c :: cs) = (accepts w (c :: cs) || accepts (.star :: w) cs) := by
  rw [accepts, row, row_cons]
  rfl

/-- A set does not fit the end of a name. -/
@[simp] theorem accepts_oneOf_nil (set : CharSet) (w : Wildcard) :
    accepts (.oneOf set :: w) [] = false := rfl

/-- A set fits one character that it holds. -/
@[simp] theorem accepts_oneOf_cons (set : CharSet) (w : Wildcard) (c : Char) (cs : List Char) :
    accepts (.oneOf set :: w) (c :: cs) = (set.holds c && accepts w cs) := by
  obtain ⟨b, bs, h⟩ := List.exists_cons_of_length_eq_add_one (length_row w cs)
  rw [accepts, row, tail_row, accepts, h]
  rfl

end Wildcard

end WorkflowLint.Glob
