import WorkflowLint.Text.Quoted
import WorkflowLint.Token

/-!
# How a token is shown

One line per token, for people who look into the lexer: kind, quoted text and start.
-/

set_option autoImplicit false

namespace WorkflowLint

/-- A token as a line of text. -/
def Token.display (t : Token) : String :=
  "Token(" ++ t.kind.name ++ ", " ++ Text.quoted t.text ++ ", " ++ t.range.start.text ++ ")"

end WorkflowLint
