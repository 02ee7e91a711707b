import RouteTrim.Value
import RouteTrim.Text.Marks
import RouteTrim.Text.Search

/-!
# Reading JSON

One JSON value, with blanks around it and nothing else. Besides the standard's values the numbers
`NaN`, `Infinity` and `-Infinity` are read; a number with a fraction or an exponent is a floating
point number, any other one an integer of any size. Control characters may not stand in a string.
A key that is repeated keeps its first place and takes its last value. A byte order mark is no
blank, so a text that starts with one is refused.

How deep lists and maps may be nested and how many digits an integer may have depends on the
program's host, and so does what stands for a surrogate that has no partner (`Host`). A text is read
up to its first fault, so a text that goes beyond a limit has none in front of that place.
-/

set_option autoImplicit false

namespace RouteTrim.Json

open RouteTrim.Decimal (Binary64)
open RouteTrim.Text (dropLeading? backslash doubleQuote)

def isSurrogate (unit : Nat) : Bool :=
  0xD800 ≤ unit ∧ unit < 0xE000

/-- What the host of the program sets for a reader. No character is a surrogate, so others stand for
those without a partner, each of them for one. -/
class Host where
  /-- How many lists and maps may stand in one another. -/
  depth : Nat
  /-- How many digits an integer may have. -/
  digits : Nat
  standIn : Nat → Char
  apart : ∀ {unit other}, isSurrogate unit = true → isSurrogate other = true →
    standIn unit = standIn other → unit = other

/-- The last characters for private use stand for surrogates. -/
def privateStandIn (unit : Nat) : Char :=
  Char.ofNat (unit + 0x102000)

theorem toNat_privateStandIn {unit : Nat} (h : isSurrogate unit = true) :
    (privateStandIn unit).toNat = unit + 0x102000 := by
  have bounds : 0xD800 ≤ unit ∧ unit < 0xE000 := by simpa [isSurrogate] using h
  have valid : (unit + 0x102000).isValidChar := .inr (by omega)
  rw [privateStandIn, Char.ofNat, dif_pos valid]
  rfl

/-- Whether a character stands for a surrogate on a usual host. -/
def isPrivateStandIn (c : Char) : Bool :=
  privateStandIn 0xD800 ≤ c

instance usualHost : Host where
  depth := 1000
  digits := 4300
  standIn := privateStandIn
  apart h h' same := by
    have equal := congrArg Char.toNat same
    rw [toNat_privateStandIn h, toNat_privateStandIn h'] at equal
    exact Nat.add_right_cancel equal

/-- The blanks of JSON. -/
def isSpace (c : Char) : Bool :=
  c == ' ' || c == '\t' || c == '\n' || c == '\r'

/-- The text behind the blanks at its front. -/
def skipSpace (s : List Char) : List Char :=
  s.dropWhile isSpace

def hexValue? (c : Char) : Option Nat :=
  if c.isDigit then some (c.toNat - 48)
  else if 'a' ≤ c ∧ c ≤ 'f' then some (c.toNat - 87)
  else if 'A' ≤ c ∧ c ≤ 'F' then some (c.toNat - 55)
  else none

/-- The number that four hexadecimal digits at the front of the text write, and what follows. -/
def fourHex? : List Char → Option (Nat × List Char)
  | a :: b :: c :: d :: rest => do
    let a ← hexValue? a
    let b ← hexValue? b
    let c ← hexValue? c
    let d ← hexValue? d
    return (((a * 16 + b) * 16 + c) * 16 + d, rest)
  | _ => none

def escaped? (c : Char) : Option Char :=
  if c = doubleQuote ∨ c = backslash ∨ c = '/' then some c
  else if c = 'b' then some (Char.ofNat 8)
  else if c = 'f' then some (Char.ofNat 12)
  else if c = 'n' then some '\n'
  else if c = 'r' then some '\r'
  else if c = 't' then some '\t'
  else none

section

variable [Host]

/-- The character that a code unit starts: two surrogates in a row make one character, and another
one stands for a surrogate without a partner. -/
def unitChar (unit : Nat) (rest : List Char) : Char × List Char :=
  if 0xD800 ≤ unit ∧ unit < 0xDC00 then
    match dropLeading? [backslash, 'u'] rest >>= fourHex? with
    | some (low, after) =>
      if 0xDC00 ≤ low ∧ low < 0xE000 then
        (Char.ofNat (0x10000 + (unit - 0xD800) * 0x400 + (low - 0xDC00)), after)
      else (Host.standIn unit, rest)
    | none => (Host.standIn unit, rest)
  else if isSurrogate unit then (Host.standIn unit, rest)
  else (Char.ofNat unit, rest)

/-- The characters up to the closing quote, and what follows it. The fuel counts characters. -/
def stringBody : Nat → List Char → Option (List Char × List Char)
  | 0, _ => none
  | _ + 1, [] => none
  | fuel + 1, c :: rest =>
    if c = doubleQuote then some ([], rest)
    else if c = backslash then
      match rest with
      | [] => none
      | e :: rest =>
        if e = 'u' then do
          let (unit, rest) ← fourHex? rest
          let (char, rest) := unitChar unit rest
          let (body, rest) ← stringBody fuel rest
          return (char :: body, rest)
        else do
          let char ← escaped? e
          let (body, rest) ← stringBody fuel rest
          return (char :: body, rest)
    else if c.toNat < 32 then none
    else do
      let (body, rest) ← stringBody fuel rest
      return (c :: body, rest)

def string? (fuel : Nat) (s : List Char) : Option (String × List Char) := do
  let (body, rest) ← stringBody fuel s
  return (String.ofList body, rest)

end

def wholeDigits? : List Char → Option (List Char × List Char)
  | '0' :: rest => some (['0'], rest)
  | s =>
    let digits := s.takeWhile Char.isDigit
    if digits.isEmpty then none else some (digits, s.dropWhile Char.isDigit)

/-- A fraction: its digits, or none where no point with digits stands. -/
def fraction (s : List Char) : List Char × List Char :=
  match s with
  | '.' :: rest =>
    let digits := rest.takeWhile Char.isDigit
    if digits.isEmpty then ([], s) else (digits, rest.dropWhile Char.isDigit)
  | _ => ([], s)

def exponent? (s : List Char) : Option (Int × List Char) :=
  match s with
  | c :: rest =>
    if c = 'e' ∨ c = 'E' then
      let (negative, rest) :=
        match rest with
        | '-' :: r => (true, r)
        | '+' :: r => (false, r)
        | r => (false, r)
      let digits := rest.takeWhile Char.isDigit
      if digits.isEmpty then none
      else
        let size : Int := (Nat.ofDigitChars 10 digits 0 : Nat)
        some (if negative then -size else size, rest.dropWhile Char.isDigit)
    else none
  | [] => none

/-- What a text gives that breaks the rules where there is nothing. -/
def wellFormed {α : Type} (read : Option α) : Except Unread α :=
  read.elim (.error .malformed) .ok

section

variable [Host]

def number (negative : Bool) (s : List Char) : Except Unread (Value × List Char) := do
  let (whole, rest) ← wellFormed (wholeDigits? s)
  let (part, rest) := fraction rest
  let power := exponent? rest
  if part.isEmpty && power.isNone then
    if Host.digits < whole.length then throw .beyondLimits
    let n : Int := (Nat.ofDigitChars 10 whole 0 : Nat)
    return (.int (if negative then -n else n), rest)
  else
    let (power, rest) := power.getD (0, rest)
    let digits := Nat.ofDigitChars 10 (whole ++ part) 0
    return (.float (Binary64.ofDecimal negative digits (power - part.length)), rest)

/-- The words that stand for values, and the numbers. -/
def scalar (s : List Char) : Except Unread (Value × List Char) :=
  let words : List (String × Value) :=
    [("null", .null), ("true", .bool true), ("false", .bool false), ("NaN", .float .notANumber),
     ("Infinity", .float (.infinite false)), ("-Infinity", .float (.infinite true))]
  match words.findSome? fun (word, v) => (dropLeading? word.toList s).map fun rest => (v, rest) with
  | some found => .ok found
  | none =>
    match s with
    | '-' :: rest => number true rest
    | _ => number false s

/-- How many lists and maps may still stand in one another behind one more opening bracket. -/
def oneDeeper : Nat → Except Unread Nat
  | 0 => .error .beyondLimits
  | level + 1 => .ok level

mutual

/-- A value at the front of the text, in which as many lists and maps may stand in one another as
the level says. Each call reads a character, so the length of the text is fuel enough. -/
def value : Nat → Nat → List Char → Except Unread (Value × List Char)
  | 0, _, _ => .error .malformed
  | fuel + 1, level, s =>
    match s with
    | [] => .error .malformed
    | c :: rest =>
      if c = doubleQuote then do
        let (text, rest) ← wellFormed (string? fuel rest)
        return (.text text, rest)
      else if c = '[' then do
        let level ← oneDeeper level
        match skipSpace rest with
        | ']' :: rest => return (.list [], rest)
        | rest =>
          let (list, rest) ← items fuel level rest
          return (.list list, rest)
      else if c = '\x7b' then do
        let level ← oneDeeper level
        match skipSpace rest with
        | '\x7d' :: rest => return (.map [], rest)
        | rest =>
          let (entries, rest) ← members fuel level rest
          return (Value.ofEntries entries, rest)
      else scalar s

/-- The items of a list up to its closing bracket. -/
def items : Nat → Nat → List Char → Except Unread (List Value × List Char)
  | 0, _, _ => .error .malformed
  | fuel + 1, level, s => do
    let (item, rest) ← value fuel level s
    match skipSpace rest with
    | ']' :: rest => return ([item], rest)
    | ',' :: rest =>
      let (more, rest) ← items fuel level (skipSpace rest)
      return (item :: more, rest)
    | _ => throw .malformed

/-- The members of a map up to its closing brace. -/
def members : Nat → Nat → List Char → Except Unread (List (Value × Value) × List Char)
  | 0, _, _ => .error .malformed
  | fuel + 1, level, s =>
    match s with
    | [] => .error .malformed
    | c :: rest => do
      if c ≠ doubleQuote then throw .malformed
      let (key, rest) ← wellFormed (string? fuel rest)
      match skipSpace rest with
      | ':' :: rest =>
        let (found, rest) ← value fuel level (skipSpace rest)
        match skipSpace rest with
        | '\x7d' :: rest => return ([(.text key, found)], rest)
        | ',' :: rest =>
          let (entries, rest) ← members fuel level (skipSpace rest)
          return ((.text key, found) :: entries, rest)
        | _ => throw .malformed
      | _ => throw .malformed

end

/-- The value that a JSON text writes. -/
def read (text : String) : Except Unread Value := do
  let s := text.toList
  let (found, rest) ← value (s.length + 1) Host.depth (skipSpace s)
  if (skipSpace rest).isEmpty then return found else throw .malformed

/-- The value that a JSON text writes, if it can be read. -/
def read? (text : String) : Option Value :=
  (read text).toOption

end

end RouteTrim.Json
