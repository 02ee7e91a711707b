/-!
# Places in a YAML text

Indentation gives a YAML text its structure, so a place in it knows its line and column besides the
characters ahead. Four characters end a line; in what a text means, `U+0085` counts as a line feed
and the two Unicode separators stay as they are.
-/

set_option autoImplicit false

namespace RouteTrim.Yaml

/-- Whether a character ends a line. -/
def isBreak (c : Char) : Bool :=
  c == '\n' || c.toNat == 0x85 || c.toNat == 0x2028 || c.toNat == 0x2029

/-- A line end as it counts in a scalar. -/
def breakText (c : Char) : Char :=
  if c.toNat = 0x85 then '\n' else c

/-- Whether a character separates words. -/
def isGap (c : Char) : Bool :=
  c == ' ' || c == '\t'

/-- Whether nothing, or something of a class, is ahead. -/
def endsOr (p : Char → Bool) : List Char → Bool
  | [] => true
  | c :: _ => p c

def atWordEnd : List Char → Bool :=
  endsOr fun c => isGap c || isBreak c

/-- Whether three marks that separate documents stand here as a word of their own. -/
def atSeparator : List Char → Bool
  | '-' :: '-' :: '-' :: rest => atWordEnd rest
  | '.' :: '.' :: '.' :: rest => atWordEnd rest
  | _ => false

/-- Whether a character may stand in a YAML text. -/
def isAllowed (c : Char) : Bool :=
  let code := c.toNat
  code == 9 || code == 10 || code == 13 || (0x20 ≤ code && code ≤ 0x7E) || code == 0x85
    || (0xA0 ≤ code && code ≤ 0xD7FF) || (0xE000 ≤ code && code ≤ 0xFFFD) || 0x10000 ≤ code

/-- A place in a text. -/
structure Cursor where
  index : Nat
  line : Nat
  column : Nat
  rest : List Char
  deriving Repr

namespace Cursor

/-- The start of a text. -/
def start (text : List Char) : Cursor :=
  ⟨0, 0, 0, text⟩

/-- The place behind some characters. A byte order mark takes no column. -/
def advance : Nat → Cursor → Cursor
  | 0, c => c
  | n + 1, c =>
    match c.rest with
    | [] => c
    | d :: rest =>
      advance n <|
        if isBreak d then ⟨c.index + 1, c.line + 1, 0, rest⟩
        else if d.toNat = 0xFEFF then ⟨c.index + 1, c.line, c.column, rest⟩
        else ⟨c.index + 1, c.line, c.column + 1, rest⟩

/-- The place where the given characters, an end of the text ahead, begin. -/
def moveTo (rest : List Char) (c : Cursor) : Cursor :=
  c.advance (c.rest.length - rest.length)

end Cursor

end RouteTrim.Yaml
