/-
Quoted text in diagnostics.

A message that shows a text puts it between quotes on one line: the backslash,
the delimiter and the characters without a visible form are written as escapes.
The delimiter is the single quote, unless the text holds single quotes and no
double quote.

* `delimiter`: the quote that surrounds a text.
* `escape`: one character as it stands between the quotes.
* `quoted`: the whole quoted text.
-/
import TinyLisp.Text.Printable

namespace TinyLisp.Text

/-- The quote that surrounds a text. -/
def delimiter (s : List Char) : Char :=
  if s.contains '\'' && !s.contains '"' then '"' else '\''

/-- A number in lower case hexadecimal digits, with zeros in front up to a width. -/
def hexadecimal (width n : Nat) : List Char :=
  (Nat.toDigits 16 n).leftpad width '0'

/-- The escape of a character by its code point, in the shortest of three widths. -/
def codeEscape (c : Char) : List Char :=
  if c.toNat < 0x100 then '\\' :: 'x' :: hexadecimal 2 c.toNat
  else if c.toNat < 0x10000 then '\\' :: 'u' :: hexadecimal 4 c.toNat
  else '\\' :: 'U' :: hexadecimal 8 c.toNat

/-- One character as it stands between two quotes `delim`. -/
def escape (delim c : Char) : List Char :=
  if c = delim then ['\\', c]
  else match c with
    | '\\' => ['\\', '\\']
    | '\n' => ['\\', 'n']
    | '\r' => ['\\', 'r']
    | '\t' => ['\\', 't']
    | c => if isPrintable c then [c] else codeEscape c

/-- A text between quotes, on one line and with every character visible. -/
def quoted (s : String) : String :=
  let delim := delimiter s.toList
  String.ofList (delim :: s.toList.flatMap (escape delim) ++ [delim])

end TinyLisp.Text
