import RouteTrim.Text.Marks
import RouteTrim.Text.Printable

/-!
# Quoted text in messages

Messages show a text between quotes: single ones, unless the text holds a single quote and no
double one. Inside, the quote in use and the backslash take a backslash, line feed, carriage
return and tab have their letters, and every other unprintable character is written as `\x`, `\u`
or `\U` with two, four or eight lower-case hexadecimal digits.
-/

set_option autoImplicit false

namespace RouteTrim.Text

/-- The last `width` hexadecimal digits of a number, in lower case. -/
def hexDigits : Nat → Nat → List Char
  | 0, _ => []
  | width + 1, n => hexDigits width (n / 16) ++ [Nat.digitChar (n % 16)]

/-- One character of a text that stands between the given quotes. -/
def quotedChar (quote c : Char) : List Char :=
  if c = quote ∨ c = backslash then [backslash, c]
  else if c = '\n' then [backslash, 'n']
  else if c = '\r' then [backslash, 'r']
  else if c = '\t' then [backslash, 't']
  else if isPrintable c then [c]
  else if c.toNat < 0x100 then backslash :: 'x' :: hexDigits 2 c.toNat
  else if c.toNat < 0x10000 then backslash :: 'u' :: hexDigits 4 c.toNat
  else backslash :: 'U' :: hexDigits 8 c.toNat

/-- The quote that a text is shown with. -/
def quoteFor (s : List Char) : Char :=
  if s.contains singleQuote && !s.contains doubleQuote then doubleQuote else singleQuote

/-- The text as a message shows it. -/
def quoted (s : List Char) : List Char :=
  let quote := quoteFor s
  quote :: s.flatMap (quotedChar quote) ++ [quote]

end RouteTrim.Text
