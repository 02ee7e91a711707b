/-!
# Quotes and the backslash

Names for the four characters that quoting is about.
-/

set_option autoImplicit false

namespace RouteTrim.Text

def singleQuote : Char := Char.ofNat 39

def doubleQuote : Char := Char.ofNat 34

def backQuote : Char := Char.ofNat 96

/-- The backslash. -/
def backslash : Char := Char.ofNat 92

def isQuote (c : Char) : Bool :=
  c == singleQuote || c == doubleQuote || c == backQuote

end RouteTrim.Text
