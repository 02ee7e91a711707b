import RouteTrim.Value
import RouteTrim.Text.Marks

/-!
# Writing JSON

The one-line JSON text of a value, in ASCII: other characters are written as the `\u` escapes of
their UTF-16 code units.
-/

set_option autoImplicit false

namespace RouteTrim.Json

open RouteTrim.Text (backslash doubleQuote hexDigits)

def unitEscape (unit : Nat) : List Char :=
  backslash :: 'u' :: hexDigits 4 unit

def stringChar (c : Char) : List Char :=
  if c = doubleQuote ∨ c = backslash then [backslash, c]
  else if c = '\n' then [backslash, 'n']
  else if 32 ≤ c.toNat ∧ c.toNat < 127 then [c]
  else if c.toNat < 0x10000 then unitEscape c.toNat
  else
    let rest := c.toNat - 0x10000
    unitEscape (0xD800 + rest / 0x400) ++ unitEscape (0xDC00 + rest % 0x400)

def stringText (s : String) : String :=
  String.ofList (doubleQuote :: s.toList.flatMap stringChar ++ [doubleQuote])

mutual

/-- The JSON text of a value. -/
def write : Value → String
  | .null => "null"
  | .bool b => if b then "true" else "false"
  | .int n => toString n
  | .float x =>
    match x with
    | .infinite negative => if negative then "-Infinity" else "Infinity"
    | .notANumber => "NaN"
    | x => x.render
  | .text s => stringText s
  | .list items => "[" ++ ", ".intercalate (writeItems items) ++ "]"
  | .map entries => "\x7b" ++ ", ".intercalate (writeEntries entries) ++ "\x7d"

def writeItems : List Value → List String
  | [] => []
  | item :: items => write item :: writeItems items

/-- The JSON texts of a map's entries; a key is written by its text. -/
def writeEntries : List (Value × Value) → List String
  | [] => []
  | (key, value) :: entries =>
    (stringText key.display ++ ": " ++ write value) :: writeEntries entries

end

end RouteTrim.Json
