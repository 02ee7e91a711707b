import RouteTrim.Tree.Lexical
import RouteTrim.Tree.Node

/-!
# Reading with a cursor

A cursor stands somewhere in a file: it knows how many characters are behind it and holds the ones
ahead. A `Parse` reads from a cursor and either gives a result with the cursor behind what it read
or fails, in which case another reading may be tried from the same place.

Tokens are read when they are asked for, since the grammar decides whether a slash starts a regular
expression and where a template goes on. Looking ahead never moves the cursor, and reading leaves
it directly behind the last token, so a node's span ends there; it starts where its first token
starts (`tokenStart`).
-/

set_option autoImplicit false

namespace RouteTrim.Tree

/-- A place in a file of `size` characters. -/
structure Cursor where
  size : Nat
  offset : Nat
  rest : List Char
  deriving Repr

namespace Cursor

/-- The cursor `n` characters further. -/
def advance (c : Cursor) (n : Nat) : Cursor :=
  ⟨c.size, c.offset + n, c.rest.drop n⟩

/-- The cursor in front of a whole text. -/
def ofText (text : List Char) : Cursor :=
  ⟨text.length, 0, text⟩

/-- The number of characters ahead. -/
def remaining (c : Cursor) : Nat :=
  c.size - c.offset

/-- The cursor in front of the next token, and whether a line ends on the way. -/
def settle (c : Cursor) : Cursor × Bool :=
  let (trivia, rest) := skipTrivia .between 0 false c.rest
  (⟨c.size, c.offset + trivia.length, rest⟩, trivia.lineEnd)

end Cursor

/-- A token. Quotes, template quotes and slashes are marks; what they open is read by the
grammar. -/
inductive Token where
  | word (text : String)
  | number
  | mark (text : String)
  | finish
  deriving DecidableEq, Repr

/-- The token at the front of a text that starts with one, and its length. -/
def tokenAt : List Char → Token × Nat
  | [] => (.finish, 0)
  | c :: rest =>
    if c.isDigit || (c == '.' && rest.head?.any Char.isDigit) then
      (.number, numberLength false false ' ' (c :: rest))
    else if startsName (c :: rest) then
      let n := nameLength 0 (c :: rest)
      (.word (String.ofList ((c :: rest).take n)), n)
    else
      let mark := markAt c rest
      (.mark mark, mark.length)

/-- A reading from a cursor. -/
abbrev Parse (α : Type) := StateT Cursor Option α

namespace Parse

variable {α : Type}

/-- No reading. -/
def fail : Parse α :=
  fun _ => none

def tokenStart : Parse Nat :=
  fun c => some (c.settle.1.offset, c)

/-- Moves in front of the next token and tells where it starts. -/
def enter : Parse Nat :=
  fun c => let c := c.settle.1; some (c.offset, c)

/-- The next token, which stays ahead. -/
def peek : Parse Token :=
  fun c => some ((tokenAt c.settle.1.rest).1, c)

/-- The token behind the next one. -/
def peekSecond : Parse Token :=
  fun c =>
    let d := c.settle.1
    some ((tokenAt (d.advance (tokenAt d.rest).2).settle.1.rest).1, c)

def lineEndAhead : Parse Bool :=
  fun c => some (c.settle.2, c)

def lineEndAfterToken : Parse Bool :=
  fun c =>
    let d := c.settle.1
    some ((d.advance (tokenAt d.rest).2).settle.2, c)

def next : Parse Token :=
  fun c =>
    let c := c.settle.1
    let (token, n) := tokenAt c.rest
    some (token, c.advance n)

/-- The characters from the next token on. -/
def ahead : Parse (List Char) :=
  fun c => some (c.settle.1.rest, c)

/-- All characters ahead, blanks and comments too. -/
def characters : Parse (List Char) :=
  fun c => some (c.rest, c)

/-- Moves on by a number of characters. -/
def skip (n : Nat) : Parse Unit :=
  fun c => some ((), c.advance n)

/-- Reads a token if it is the next one. -/
def accept (token : Token) : Parse Bool := do
  if (← peek) = token then
    let _ ← next
    return true
  else return false

/-- Reads a mark if it is the next token. -/
def acceptMark (mark : String) : Parse Bool :=
  accept (.mark mark)

/-- Reads a word if it is the next token. -/
def acceptWord (word : String) : Parse Bool :=
  accept (.word word)

/-- Reads a mark, which must be the next token. -/
def mark (text : String) : Parse Unit := do
  if !(← acceptMark text) then fail

/-- Reads a word, which must be the next token. -/
def word (text : String) : Parse Unit := do
  if !(← acceptWord text) then fail

/-- Tries a reading and stays in place if it fails. -/
def attempt (p : Parse α) : Parse (Option α) :=
  fun c =>
    match p c with
    | some (a, c') => some (some a, c')
    | none => some (none, c)

/-- Whether a reading would succeed here. -/
def isAhead (p : Parse α) : Parse Bool :=
  fun c => some ((p c).isSome, c)

/-- Repeats a step until it gives nothing; the fuel bounds the number of steps. -/
def repeatStep (step : Parse (Option α)) : Nat → Parse (List α)
  | 0 => pure []
  | fuel + 1 => do
    match ← step with
    | none => return []
    | some a => return a :: (← repeatStep step fuel)

/-- Repeats a step until it gives nothing. Each step reads a character or ends the repetition, so
the characters ahead bound their number. -/
def many (step : Parse (Option α)) : Parse (List α) :=
  fun c => repeatStep step (c.remaining + 1) c

/-- Repeats a change of a value until it gives nothing. -/
def iterateStep (step : α → Parse (Option α)) : Nat → α → Parse α
  | 0, a => pure a
  | fuel + 1, a => do
    match ← step a with
    | none => return a
    | some b => iterateStep step fuel b

/-- Repeats a change of a value until it gives nothing. -/
def iterate (step : α → Parse (Option α)) (a : α) : Parse α :=
  fun c => iterateStep step (c.remaining + 1) a c

/-- The items of a list up to its closing mark, which is read too. Items stand between commas;
holes and a comma at the end are allowed. -/
def listUntil (close : String) (item : Parse α) : Parse (List α) := do
  let items ← many do
    match ← peek with
    | .mark text =>
      if text == close then return none
      else if text == "," then
        let _ ← next
        return some none
      else return some (some (← item))
    | .finish => return none
    | _ => return some (some (← item))
  mark close
  return items.filterMap id

/-- A node that starts at an offset and ends at the cursor. -/
def node (kind : Kind) (start : Nat) (children : List Node) : Parse Node :=
  fun c => some (.mk kind .plain ⟨start, c.offset - start⟩ children, c)

/-- The next token as a node without children. -/
def leaf (kind : Kind) : Parse Node := do
  let start ← tokenStart
  let _ ← next
  node kind start []

def wordLeaf (kind : Kind) : Parse Node := do
  match ← peek with
  | .word _ => leaf kind
  | _ => fail

end Parse

end RouteTrim.Tree
