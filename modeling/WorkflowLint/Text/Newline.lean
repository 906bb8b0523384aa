/-!
# Line ends of files

Files may end their lines with a line feed, a carriage return, or both in that order. When a file is
read, all of these become a line feed.

## Main definitions

* `WorkflowLint.Text.unifyNewlines` — one spelling for all line ends.
-/

set_option autoImplicit false

namespace WorkflowLint.Text

/-- Write every line end of a text as a line feed. -/
def unifyLines : List Char → List Char
  | '\r' :: '\n' :: cs => '\n' :: unifyLines cs
  | '\r' :: cs => '\n' :: unifyLines cs
  | c :: cs => c :: unifyLines cs
  | [] => []

/-- Write every line end of a text as a line feed. -/
def unifyNewlines (s : String) : String := String.ofList (unifyLines s.toList)

end WorkflowLint.Text
