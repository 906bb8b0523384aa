import WorkflowLint.Text.Printable

/-!
# Quoted text

How a text is shown inside a message: between quotes, with everything escaped that would not be
readable there. Single quotes are used, unless the text holds a single quote and no double quote.

## Main definitions

* `WorkflowLint.Text.hexDigits` — a number as lower-case hexadecimal digits of a least width.
* `WorkflowLint.Text.quoted` — a text between quotes.
-/

set_option autoImplicit false

namespace WorkflowLint.Text

/-- The lower-case hexadecimal digits of `n`, with leading zeros up to the given width. -/
def hexDigits (width n : Nat) : List Char :=
  let ds := Nat.toDigits 16 n
  List.replicate (width - ds.length) '0' ++ ds

/-- The quote around a text: single, unless only a single quote occurs in the text. -/
def quoteFor (cs : List Char) : Char :=
  if cs.contains '\'' && !cs.contains '"' then '"' else '\''

/-- How a character is written between quotes. Backslashes and the quote itself are escaped, and so
is what is not printable: by a letter if it has one, otherwise by the shortest of the three
forms with two, four and eight hexadecimal digits. -/
def quotedChar (quote c : Char) : List Char :=
  if c == quote || c == '\\' then ['\\', c]
  else if c == '\n' then ['\\', 'n']
  else if c == '\r' then ['\\', 'r']
  else if c == '\t' then ['\\', 't']
  else if isPrintable c then [c]
  else if c.toNat < 0x100 then ['\\', 'x'] ++ hexDigits 2 c.toNat
  else if c.toNat < 0x10000 then ['\\', 'u'] ++ hexDigits 4 c.toNat
  else ['\\', 'U'] ++ hexDigits 8 c.toNat

/-- A text between quotes. -/
def quoted (s : String) : String :=
  let cs := s.toList
  let quote := quoteFor cs
  String.ofList ([quote] ++ cs.flatMap (quotedChar quote) ++ [quote])

end WorkflowLint.Text
