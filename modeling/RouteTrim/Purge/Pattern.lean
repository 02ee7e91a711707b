import RouteTrim.Text.Alphanumeric
import RouteTrim.Text.Blank

/-!
# Patterns

Statements that are to be cut out of a text are described by patterns. A pattern that starts at a
place of a text may end at several places; `ends` lists them by preference, since a run of
characters that takes as many as it can may have to give some back for what follows it. The first
end is the one that counts, and of several starts the leftmost.
-/

set_option autoImplicit false

namespace RouteTrim.Purge

open RouteTrim.Text (isBlank isWordChar)

/-- A place in a text: the characters behind it, the nearest one first, and the ones ahead. -/
structure Place where
  behind : List Char
  ahead : List Char
  deriving DecidableEq, Repr

/-- The start of a text. -/
def Place.start (text : List Char) : Place :=
  ⟨[], text⟩

/-- A description of a stretch of text. -/
inductive Pattern where
  /-- The empty stretch. -/
  | nothing
  /-- One character of a class. -/
  | one (p : Char → Bool)
  /-- One pattern and then another. -/
  | both (first second : Pattern)
  /-- One pattern or, failing that, another. -/
  | either (first second : Pattern)
  /-- Characters of a class, as many as possible. -/
  | many (p : Char → Bool)
  /-- Characters of a class, as few as possible. -/
  | few (p : Char → Bool)
  /-- The empty stretch, unless a character of a class lies directly behind. -/
  | notBehind (p : Char → Bool)

namespace Pattern

instance : Append Pattern :=
  ⟨both⟩

/-- The places behind zero, one, two, … characters of a class. -/
def placesAlong (p : Char → Bool) (behind : List Char) : List Char → List Place
  | [] => [⟨behind, []⟩]
  | c :: ahead =>
    ⟨behind, c :: ahead⟩ :: (if p c then placesAlong p (c :: behind) ahead else [])

/-- The places where a pattern may end, the preferred one first. -/
def ends : Pattern → Place → List Place
  | nothing, place => [place]
  | one p, place =>
    match place.ahead with
    | [] => []
    | c :: ahead => if p c then [⟨c :: place.behind, ahead⟩] else []
  | both first second, place => (first.ends place).flatMap second.ends
  | either first second, place => first.ends place ++ second.ends place
  | many p, place => (placesAlong p place.behind place.ahead).reverse
  | few p, place => placesAlong p place.behind place.ahead
  | notBehind p, place =>
    match place.behind with
    | [] => [place]
    | c :: _ => if p c then [] else [place]

/-- Where a pattern that starts here ends, if something is left out of it. -/
def end? (pattern : Pattern) (place : Place) : Option Place :=
  (pattern.ends place).head?.filter fun last => last.ahead.length < place.ahead.length

theorem end?_shorter {pattern : Pattern} {place last : Place} (h : pattern.end? place = some last) :
    last.ahead.length < place.ahead.length := by
  rw [end?, Option.filter_eq_some_iff] at h
  exact of_decide_eq_true h.2

/-- The text ahead of a place without any stretch that a pattern describes. -/
def removeFrom (pattern : Pattern) (place : Place) : List Char :=
  match _ : pattern.end? place with
  | some last => removeFrom pattern last
  | none =>
    match _ : place.ahead with
    | [] => []
    | c :: ahead => c :: removeFrom pattern ⟨c :: place.behind, ahead⟩
termination_by place.ahead.length
decreasing_by
  · exact end?_shorter ‹_›
  · simp [*]

/-- A text without any stretch that a pattern describes. -/
def removeAll (pattern : Pattern) (text : List Char) : List Char :=
  pattern.removeFrom (.start text)

/-- The first stretch that a pattern describes, from a place on: where it starts and ends. -/
def findFrom (pattern : Pattern) (behind : List Char) : List Char → Option (Place × Place)
  | [] => (pattern.end? ⟨behind, []⟩).map fun last => (⟨behind, []⟩, last)
  | c :: ahead =>
    match pattern.end? ⟨behind, c :: ahead⟩ with
    | some last => some (⟨behind, c :: ahead⟩, last)
    | none => findFrom pattern (c :: behind) ahead

/-- The first stretch of a text that a pattern describes. -/
def find? (pattern : Pattern) (text : List Char) : Option (Place × Place) :=
  pattern.findFrom [] text

/-- A text without the first stretch that a pattern describes. -/
def removeFirst (pattern : Pattern) (text : List Char) : List Char :=
  match pattern.find? text with
  | some (first, last) => first.behind.reverse ++ last.ahead
  | none => text

/-! ## Common patterns -/

def exactly : List Char → Pattern
  | [] => nothing
  | c :: text => one (· == c) ++ exactly text

/-- A word or mark as it stands. -/
def literal (text : String) : Pattern :=
  exactly text.toList

/-- A pattern that may be missing. -/
def maybe (pattern : Pattern) : Pattern :=
  either pattern nothing

/-- At least one character of a class, as many as possible. -/
def oneOrMore (p : Char → Bool) : Pattern :=
  one p ++ many p

/-- Whether a character may be part of a name. -/
def isNameChar (c : Char) : Bool :=
  isWordChar c || c == '$'

/-- Whether a character directly in front of a name makes it a part of a longer one. -/
def continuesName (c : Char) : Bool :=
  isNameChar c || c == '.'

def blanks : Pattern :=
  many isBlank

def someBlanks : Pattern :=
  oneOrMore isBlank

/-- A name. -/
def name : Pattern :=
  oneOrMore isNameChar

def nameStart : Pattern :=
  notBehind continuesName

/-- Blanks within a line. -/
def spaces : Pattern :=
  many fun c => c == ' ' || c == '\t'

def lineEnd : Pattern :=
  maybe (maybe (literal "\r") ++ literal "\n")

/-- The rest of a line behind a closed construct, if there is nothing else on it. -/
def restOfLine : Pattern :=
  spaces ++ lineEnd

/-- The rest of a statement: a semicolon, if there is one, and the rest of the line. -/
def statementEnd : Pattern :=
  spaces ++ maybe (literal ";") ++ restOfLine

def inQuotes (text : String) : Pattern :=
  either (literal "'" ++ literal text ++ literal "'")
    (literal "\"" ++ literal text ++ literal "\"")

end Pattern

end RouteTrim.Purge
