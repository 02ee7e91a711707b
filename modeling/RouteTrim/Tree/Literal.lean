import RouteTrim.Tree.Grammar

/-!
# Literals and property names

Strings and templates hold their pieces as children, one for each run of plain characters and one
for each escape; a template also holds the expressions in it. A regular expression holds its
pattern and its flags.
-/

set_option autoImplicit false

namespace RouteTrim.Tree

open RouteTrim.Text (backQuote singleQuote doubleQuote)

namespace Literal

open Parse

def pieceNodes : Nat → List Piece → List Node
  | _, [] => []
  | start, piece :: pieces =>
    let kind := match piece with
      | .plain _ => Kind.stringFragment
      | .escape _ => Kind.escapeSequence
    .mk kind .plain ⟨start, piece.length⟩ [] :: pieceNodes (start + piece.length) pieces

def coveredLength (pieces : List Piece) : Nat :=
  pieces.foldr (fun piece length => piece.length + length) 0

/-- Pieces up to a stop as nodes; the cursor is left in front of the stop. -/
def pieces (stops : List Char → Bool) : Parse (List Node) :=
  fun c =>
    let (pieces, rest) := piecesUntil stops 0 0 0 c.rest
    some (pieceNodes c.offset pieces, ⟨c.size, c.offset + coveredLength pieces, rest⟩)

/-- Whether a text goes on with a character. -/
def startsWithChar (c : Char) (s : List Char) : Bool :=
  s.head? == some c

/-- A character that no string literal contains outside of an escape: a line end, or the null
character. -/
def breaksString (c : Char) : Bool :=
  c == '\n' || c == '\r' || c.toNat == 0

/-- Whether the text of a string literal stops here: at its quote, or at what breaks it off. -/
def stopsString (quote : Char) (s : List Char) : Bool :=
  s.head?.any fun c => c == quote || breaksString c

/-- A string literal. It ends with the quote that it starts with. -/
def string : Parse Node := do
  let start ← enter
  match (← ahead).head? with
  | some quote =>
    if quote = singleQuote ∨ quote = doubleQuote then
      skip 1
      let children ← pieces (stopsString quote)
      if !startsWithChar quote (← characters) then fail
      skip 1
      node .string start children
    else fail
  | none => fail

/-- Whether a template's text stops here: at its end or in front of an expression. -/
def stopsTemplate : List Char → Bool
  | '$' :: '\x7b' :: _ => true
  | c :: _ => c == backQuote
  | [] => false

/-- One stretch of a template: its text, or an expression in it. The cursor may stand behind
blanks that belong to the template, so nothing is skipped. -/
def templateStep (g : Grammar) : Parse (Option (List Node)) :=
  fun c =>
    match c.rest with
    | '$' :: '\x7b' :: _ =>
      (do
        skip 2
        let inner ← g.expressions
        mark "\x7d"
        let substitution ← node .templateSubstitution c.offset [inner]
        return some [substitution] : Parse (Option (List Node))) c
    | d :: _ =>
      if d == backQuote then some (none, c)
      else (some <$> pieces stopsTemplate : Parse (Option (List Node))) c
    | [] => some (none, c)

def template (g : Grammar) : Parse Node := do
  let start ← enter
  if !startsWithChar backQuote (← ahead) then fail
  skip 1
  let stretches ← many (templateStep g)
  skip 1
  node .templateString start stretches.flatten

/-- A regular expression. Blanks behind its opening slash belong to it. -/
def regex : Parse Node := do
  let start ← enter
  skip 1
  let length := regexLength false false (← characters)
  skip length
  let pattern ← node .regexPattern (start + 1) []
  skip 1
  let flags := ((← characters).takeWhile Char.isLower).length
  if flags = 0 then node .regex start [pattern]
  else
    skip flags
    let flags ← node .regexFlags (start + length + 2) []
    node .regex start [pattern, flags]

/-- The name of a member behind a hash. -/
def privateName : Parse Node := do
  let start ← tokenStart
  mark "#"
  let _ ← wordLeaf .identifier
  node .privatePropertyIdentifier start []

/-- The name of a property: a word, a string, a number, a private name, or an expression in
brackets. -/
def propertyName (g : Grammar) : Parse Node := do
  match ← peek with
  | .word _ => leaf .propertyIdentifier
  | .number => leaf .number
  | .mark text =>
    if text == "#" then privateName
    else if text == "[" then
      let start ← tokenStart
      mark "["
      let inner ← g.expression
      mark "]"
      node .computedPropertyName start [inner]
    else string
  | .finish => fail

end Literal

end RouteTrim.Tree
