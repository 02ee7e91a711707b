import RouteTrim.Text.Marks
import RouteTrim.Text.Search

/-!
# Words, marks and trivia

The smallest pieces of TypeScript text: what may stand between tokens (blanks and comments), the
characters of identifiers, punctuation marks, numbers, and the pieces of string literals and
regular expressions. All functions here look at the front of a list of characters.
-/

set_option autoImplicit false

namespace RouteTrim.Tree

open RouteTrim.Text (backslash backQuote doubleQuote singleQuote startsWith)

/-- A character that may stand between tokens: Unicode white space, the line and paragraph
separators, the word joiner, the zero-width space and the byte order mark. -/
def isSpacing (c : Char) : Bool :=
  let code := c.toNat
  (9 ≤ code && code ≤ 13) || code == 32 || code == 0x85 || code == 0xA0 || code == 0x1680
    || (0x2000 ≤ code && code ≤ 0x200B) || code == 0x2028 || code == 0x2029 || code == 0x202F
    || code == 0x205F || code == 0x2060 || code == 0x3000 || code == 0xFEFF

def isLineEnd (c : Char) : Bool :=
  c == '\n' || c == '\r' || c.toNat == 0x2028 || c.toNat == 0x2029

/-- What stands in front of a token: how many characters, and whether a line ends there. -/
structure Trivia where
  length : Nat
  lineEnd : Bool
  deriving Repr

/-- Inside which kind of trivia a text stands. -/
inductive TriviaState where
  | between
  | lineComment
  | blockComment

/-- Measures the blanks and comments at the front of a text and gives what follows them. -/
def skipTrivia : TriviaState → Nat → Bool → List Char → Trivia × List Char
  | _, n, b, [] => (⟨n, b⟩, [])
  | .between, n, b, '/' :: '/' :: rest => skipTrivia .lineComment (n + 2) b rest
  | .between, n, b, '/' :: '*' :: rest => skipTrivia .blockComment (n + 2) b rest
  | .between, n, b, c :: rest =>
    if isSpacing c then skipTrivia .between (n + 1) (b || isLineEnd c) rest
    else (⟨n, b⟩, c :: rest)
  | .lineComment, n, b, c :: rest =>
    if isLineEnd c then skipTrivia .between (n + 1) true rest
    else skipTrivia .lineComment (n + 1) b rest
  | .blockComment, n, b, '*' :: '/' :: rest => skipTrivia .between (n + 2) b rest
  | .blockComment, n, b, c :: rest => skipTrivia .blockComment (n + 1) (b || isLineEnd c) rest

/-- The ASCII marks that no identifier contains. -/
def marks : List Char :=
  [':', ';', backQuote, doubleQuote, singleQuote, '@', '#', '.', ',', '|', '^', '&', '<', '=', '>',
   '+', '-', '*', '/', backslash, '%', '?', '!', '~', '(', ')', '[', ']', '\x7b', '\x7d']

/-- A character that an identifier may contain. -/
def isNamePart (c : Char) : Bool :=
  c.isAlphanum || c == '_' || c == '$'
    || (32 < c.toNat && !isSpacing c && !marks.contains c)

/-- A character that an identifier may start with. -/
def isNameStart (c : Char) : Bool :=
  isNamePart c && !c.isDigit

/-- A Unicode escape in an identifier: its length, if one stands at the front. -/
def nameEscape? (s : List Char) : Option Nat :=
  match s with
  | c :: 'u' :: '\x7b' :: rest =>
    if c = backslash then some (4 + (rest.takeWhile (· != '\x7d')).length) else none
  | c :: 'u' :: _ => if c = backslash then some 6 else none
  | _ => none

/-- The length of the identifier at the front of a text. `pending` counts characters that are
known to belong to it. -/
def nameLength : Nat → List Char → Nat
  | _, [] => 0
  | pending + 1, _ :: rest => 1 + nameLength pending rest
  | 0, c :: rest =>
    if isNamePart c then 1 + nameLength 0 rest
    else
      match nameEscape? (c :: rest) with
      | some n => 1 + nameLength (n - 1) rest
      | none => 0

def startsName (s : List Char) : Bool :=
  match s with
  | [] => false
  | c :: _ => isNameStart c || (nameEscape? s).isSome

/-- The marks of more than one character, longer ones first. A mark that starts with `>` is read
one character at a time, since it may close several lists of types. -/
def longMarks : List String :=
  ["...", "===", "!==", "**=", "<<=", "&&=", "||=", "??=", "=>", "==", "!=", "<=", "<<", "**", "++",
   "--", "+=", "-=", "*=", "/=", "%=", "&=", "|=", "^=", "&&", "||", "??", "?."]

/-- The mark at the front of a text. A question mark in front of a fraction such as `.5` stands
alone. -/
def markAt (c : Char) (s : List Char) : String :=
  match longMarks.find? fun mark => startsWith mark.toList (c :: s) with
  | some mark =>
    if mark == "?." && ((s.drop 1).head?.any Char.isDigit) then "?" else mark
  | none => String.singleton c

/-- The length of the number at the front of a text: digits, letters (prefixes, exponents,
suffixes) and separators, one point, and a sign behind an exponent letter. -/
def numberLength (hex : Bool) (seenPoint : Bool) (last : Char) : List Char → Nat
  | [] => 0
  | c :: rest =>
    if c.isAlphanum || c == '_' then
      1 + numberLength (hex || (last == '0' && (c == 'x' || c == 'X'))) seenPoint c rest
    else if c == '.' && !seenPoint && !hex then 1 + numberLength hex true c rest
    else if (c == '+' || c == '-') && (last == 'e' || last == 'E') && !hex then
      1 + numberLength hex seenPoint c rest
    else 0

/-- How many characters an escape takes behind its backslash. -/
def escapeLength (s : List Char) : Nat :=
  match s with
  | [] => 0
  | '\r' :: '\n' :: _ => 2
  | 'x' :: _ => 3
  | 'u' :: '\x7b' :: rest => 3 + (rest.takeWhile (· != '\x7d')).length
  | 'u' :: _ => 5
  | c :: rest =>
    if isOctal c then 1 + ((rest.take 2).takeWhile isOctal).length else 1
where
  /-- A digit of an octal escape. -/
  isOctal (c : Char) : Bool := '0' ≤ c && c ≤ '7'

/-- A piece of a string or template: characters that stand for themselves, or one escape. -/
inductive Piece where
  | plain (length : Nat)
  | escape (length : Nat)
  deriving Repr, DecidableEq

/-- The length of a piece. -/
def Piece.length : Piece → Nat
  | plain n => n
  | escape n => n

/-- A run of plain characters in front of further pieces, unless it is empty. -/
def plainThen (n : Nat) (pieces : List Piece) : List Piece :=
  if n = 0 then pieces else .plain n :: pieces

/-- The pieces in front of the first character (outside of escapes) at which `stops` holds, and
the text from there on. `run` is the length of the plain run read so far; inside an escape,
`left` characters of it are still to be read. -/
def piecesUntil (stops : List Char → Bool) (run left total : Nat) :
    List Char → List Piece × List Char
  | [] => (if 0 < left then [.escape total] else plainThen run [], [])
  | c :: rest =>
    match left with
    | 0 =>
      if stops (c :: rest) then (plainThen run [], c :: rest)
      else if c = backslash then
        let n := escapeLength rest
        let (pieces, rest') := piecesUntil stops 0 n (n + 1) rest
        (plainThen run (if n = 0 then .escape 1 :: pieces else pieces), rest')
      else piecesUntil stops (run + 1) 0 0 rest
    | 1 =>
      let (pieces, rest) := piecesUntil stops 0 0 0 rest
      (.escape total :: pieces, rest)
    | left + 2 => piecesUntil stops 0 (left + 1) total rest

/-- The length of a regular expression behind its opening slash, up to the closing one. -/
def regexLength (inClass escaped : Bool) : List Char → Nat
  | [] => 0
  | c :: rest =>
    if escaped then 1 + regexLength inClass false rest
    else if c == backslash then 1 + regexLength inClass true rest
    else if c == '[' then 1 + regexLength true false rest
    else if c == ']' then 1 + regexLength false false rest
    else if (c == '/' && !inClass) || c == '\n' then 0
    else 1 + regexLength inClass false rest

end RouteTrim.Tree
