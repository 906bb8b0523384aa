/-!
# Terminal control sequences

Lines that do not go to a terminal are freed of control sequences: an escape character, an opening
bracket, parameters and a final letter. An escape character that starts no such sequence stays.

## Main definitions

* `WorkflowLint.Text.stripAnsi` — a text without control sequences.
-/

set_option autoImplicit false

namespace WorkflowLint.Text

/-- The characters of the parameters of a control sequence. -/
def isAnsiParameter (c : Char) : Bool := c.isDigit || c == ';' || c == '?'

/-- What is left behind the parameters and the final letter of a control sequence, if they are
there. -/
def afterAnsi? (cs : List Char) : Option (List Char) :=
  match cs.dropWhile isAnsiParameter with
  | c :: rest => if c.isAlpha then some rest else none
  | [] => none

theorem length_afterAnsi? {cs rest : List Char} (h : afterAnsi? cs = some rest) :
    rest.length < cs.length := by
  have hd : (cs.dropWhile isAnsiParameter).length ≤ cs.length :=
    (List.dropWhile_sublist _).length_le
  unfold afterAnsi? at h
  split at h
  · rename_i heq
    split at h
    · simp only [Option.some.injEq] at h
      subst h
      rw [heq] at hd
      simp only [List.length_cons] at hd
      omega
    · simp at h
  · simp at h

/-- A text without control sequences. -/
def stripAnsiChars : List Char → List Char
  | [] => []
  | '\x1b' :: '[' :: cs =>
    match h : afterAnsi? cs with
    | some rest =>
      have := length_afterAnsi? h
      stripAnsiChars rest
    | none => '\x1b' :: stripAnsiChars ('[' :: cs)
  | c :: cs => c :: stripAnsiChars cs
termination_by cs => cs.length

/-- A text without control sequences. -/
def stripAnsi (s : String) : String := String.ofList (stripAnsiChars s.toList)

end WorkflowLint.Text
