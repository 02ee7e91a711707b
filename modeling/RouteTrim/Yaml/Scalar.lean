import RouteTrim.Text.Marks
import RouteTrim.Yaml.Cursor

/-!
# Scalars

The ways to write a scalar. A plain one goes on over lines that are indented deeply enough, a quoted
one up to its closing quote; in both a single line end counts as a blank and further ones stay. A
block scalar takes the lines that are indented as deeply as its first one, as they are or folded.

Each reading takes the characters ahead and gives the scalar's text with the characters behind it.
Its fuel counts characters.
-/

set_option autoImplicit false

namespace RouteTrim.Yaml

open RouteTrim.Text (singleQuote doubleQuote backslash)

/-! ## Line ends inside a scalar -/

/-- What lies behind a line end: further line ends, and the indentation of the line behind them. -/
structure EmptyLines where
  breaks : List Char
  column : Nat
  /-- Whether the document ends here. -/
  separator : Bool
  rest : List Char

/-- The empty lines ahead, which may hold characters of a class. -/
def emptyLines (p : Char → Bool) : Nat → List Char → EmptyLines
  | 0, s => ⟨[], 0, true, s⟩
  | fuel + 1, s =>
    if atSeparator s then ⟨[], 0, true, s⟩
    else
      let column := (s.takeWhile p).length
      match s.dropWhile p with
      | [] => ⟨[], column, false, []⟩
      | c :: rest =>
        if isBreak c then
          let lines := emptyLines p fuel rest
          { lines with breaks := breakText c :: lines.breaks }
        else ⟨[], column, false, c :: rest⟩

/-- The text that a line end and the empty lines behind it stand for. -/
def foldedText (first : Char) (more : List Char) : List Char :=
  if first ≠ '\n' then first :: more else if more.isEmpty then [' '] else more

/-! ## Plain scalars -/

def stopsPlain (inFlow : Bool) (c : Char) (rest : List Char) : Bool :=
  isGap c || isBreak c || (inFlow && ",?[]\x7b\x7d".toList.contains c)
    || (c == ':' && endsOr
      (fun d => isGap d || isBreak d || (inFlow && ",[]\x7b\x7d".toList.contains d)) rest)

/-- The characters up to where a plain scalar stops, and the ones from there on. -/
def plainRun (inFlow : Bool) : List Char → List Char × List Char
  | [] => ([], [])
  | c :: rest =>
    if stopsPlain inFlow c rest then ([], c :: rest)
    else
      let (run, rest) := plainRun inFlow rest
      (c :: run, rest)

/-- What lies behind a run of a plain scalar. Behind an empty text the scalar does not go on. -/
structure PlainGap where
  text : List Char
  /-- Whether a line ends in the gap. -/
  lineEnds : Bool
  /-- The column behind the gap, if a line ends in it. -/
  column : Nat
  rest : List Char

/-- The gap at the front of a text. -/
def plainGap (s : List Char) : PlainGap :=
  let spaces := s.takeWhile (· == ' ')
  match s.dropWhile (· == ' ') with
  | [] => ⟨spaces, false, 0, []⟩
  | c :: rest =>
    if isBreak c then
      let lines := emptyLines (· == ' ') (rest.length + 1) rest
      let text := if lines.separator then [] else foldedText (breakText c) lines.breaks
      ⟨text, true, lines.column, lines.rest⟩
    else ⟨spaces, false, 0, c :: rest⟩

/-- A plain scalar and what was seen behind it. -/
structure PlainScalar where
  text : List Char
  /-- Whether a line ends behind the scalar. -/
  lineEnds : Bool
  rest : List Char

/-- A plain scalar. Outside of flow collections its further lines are indented by at least
`indent`. -/
def plainScalar (inFlow : Bool) (indent : Int) : Nat → List Char → PlainScalar
  | 0, s => ⟨[], false, s⟩
  | fuel + 1, s =>
    let (run, rest) := plainRun inFlow s
    let gap := plainGap rest
    if gap.text.isEmpty || gap.rest.head? == some '#'
        || (!inFlow && gap.lineEnds && decide ((gap.column : Int) < indent))
        || (plainRun inFlow gap.rest).1.isEmpty then
      ⟨run, gap.lineEnds, gap.rest⟩
    else
      let more := plainScalar inFlow indent fuel gap.rest
      { more with text := run ++ gap.text ++ more.text }

/-! ## Quoted scalars -/

/-- The line ends ahead inside quotes; no document may end here. -/
def quotedBreaks (s : List Char) : Option (List Char × List Char) :=
  let lines := emptyLines isGap (s.length + 1) s
  if lines.separator then none else some (lines.breaks, lines.rest)

/-- The character of an escape that is one letter long. -/
def escapedChar? (c : Char) : Option Char :=
  let table : List (Char × Nat) :=
    [('0', 0x00), ('a', 0x07), ('b', 0x08), ('t', 0x09), ('\t', 0x09), ('n', 0x0A), ('v', 0x0B),
      ('f', 0x0C), ('r', 0x0D), ('e', 0x1B), (' ', 0x20), (doubleQuote, 0x22), (backslash, 0x5C),
      ('/', 0x2F), ('N', 0x85), ('_', 0xA0), ('L', 0x2028), ('P', 0x2029)]
  (table.lookup c).map Char.ofNat

/-- The number of hexadecimal digits behind the letter of an escape. -/
def escapeLength? (c : Char) : Option Nat :=
  if c = 'x' then some 2 else if c = 'u' then some 4 else if c = 'U' then some 8 else none

/-- The value of a hexadecimal digit. -/
def hexDigit? (c : Char) : Option Nat :=
  if c.isDigit then some (c.toNat - 48)
  else if 'a' ≤ c ∧ c ≤ 'f' then some (c.toNat - 87)
  else if 'A' ≤ c ∧ c ≤ 'F' then some (c.toNat - 55)
  else none

def hexNumber? (digits : List Char) : Option Nat :=
  (digits.mapM hexDigit?).map fun values => values.foldl (fun n d => 16 * n + d) 0

/-- What an escape stands for, and the characters behind it. An escaped line end goes with the
blanks in front of the next line. -/
def escape? : List Char → Option (List Char × List Char)
  | [] => none
  | c :: rest =>
    match escapedChar? c with
    | some d => some ([d], rest)
    | none =>
      match escapeLength? c with
      | some length => do
        if rest.length < length then none
        let code ← hexNumber? (rest.take length)
        return ([Char.ofNat code], rest.drop length)
      | none => if isBreak c then quotedBreaks rest else none

def quotedScalar (quote : Char) : Nat → List Char → Option (List Char × List Char)
  | 0, _ => none
  | fuel + 1, s =>
    let goOn (text : List Char) (rest : List Char) : Option (List Char × List Char) :=
      (quotedScalar quote fuel rest).map fun (more, rest) => (text ++ more, rest)
    let gap := s.takeWhile isGap
    match s.dropWhile isGap with
    | [] => none
    | c :: rest =>
      if isBreak c then do
        let (breaks, rest) ← quotedBreaks rest
        goOn (foldedText (breakText c) breaks) rest
      else if !gap.isEmpty then goOn gap (c :: rest)
      else if c = quote then
        if quote = singleQuote ∧ rest.head? = some singleQuote then goOn [c] (rest.drop 1)
        else some ([], rest)
      else if c = backslash ∧ quote = doubleQuote then do
        let (text, rest) ← escape? rest
        goOn text rest
      else goOn [c] rest

/-! ## Block scalars -/

/-- What becomes of the line ends behind the last line of a block scalar. -/
inductive Chomping where
  /-- The first one stays. -/
  | clip
  /-- None stays. -/
  | strip
  /-- All of them stay. -/
  | keep
  deriving DecidableEq, Repr

/-- The sign for a chomping, if one stands here. -/
def readChomping : List Char → Chomping × List Char
  | '-' :: rest => (.strip, rest)
  | '+' :: rest => (.keep, rest)
  | s => (.clip, s)

/-- The digit that tells the indentation, if one stands here. It may not be zero. -/
def readIncrement : List Char → Option (Option Nat × List Char)
  | [] => some (none, [])
  | c :: rest =>
    if c = '0' then none
    else if c.isDigit then some (some (c.toNat - 48), rest)
    else some (none, c :: rest)

/-- The rest of a line that may only hold blanks and a comment, with its end. -/
def skipRestOfLine (s : List Char) : Option (List Char) :=
  let s := s.dropWhile (· == ' ')
  let s := if s.head? = some '#' then s.dropWhile (fun c => !isBreak c) else s
  match s with
  | [] => some []
  | c :: rest => if isBreak c then some rest else none

/-- The head of a block scalar: the chomping and the indentation, in either order. -/
def blockHead (s : List Char) : Option (Chomping × Option Nat × List Char) := do
  let (chomping, rest) := readChomping s
  let (increment, rest) ← readIncrement rest
  let (chomping, rest) :=
    if chomping = .clip && increment.isSome then readChomping rest else (chomping, rest)
  if endsOr (fun c => c == ' ' || isBreak c) rest then
    return (chomping, increment, ← skipRestOfLine rest)
  else none

/-- The empty lines in front of a block scalar's first line, the deepest indentation among them
and that line, and where the line's text begins. -/
def deepestIndent : Nat → List Char → List Char × Nat × Nat × List Char
  | 0, s => ([], 0, 0, s)
  | fuel + 1, s =>
    let column := (s.takeWhile (· == ' ')).length
    match s.dropWhile (· == ' ') with
    | [] => ([], column, column, [])
    | c :: rest =>
      if isBreak c then
        let (breaks, deepest, last, rest) := deepestIndent fuel rest
        (breakText c :: breaks, max column deepest, last, rest)
      else ([], column, column, c :: rest)

/-- The empty lines ahead and the line behind them, with at most `indent` blanks taken from the
front of each. -/
def indentedBreaks (indent : Nat) : Nat → List Char → List Char × Nat × List Char
  | 0, s => ([], 0, s)
  | fuel + 1, s =>
    let column := min indent (s.takeWhile (· == ' ')).length
    match s.drop column with
    | [] => ([], column, [])
    | c :: rest =>
      if isBreak c then
        let (breaks, column, rest) := indentedBreaks indent fuel rest
        (breakText c :: breaks, column, rest)
      else ([], column, c :: rest)

/-- The text between two lines of a block scalar, of which the first ends with `lineEnd` and is
followed by the empty lines `breaks`. Folding leaves lines that are indented further alone. -/
def betweenLines (folded : Bool) (line : List Char) (lineEnd : Char) (breaks next : List Char) :
    List Char :=
  let flush (s : List Char) : Bool := !endsOr isGap s
  if folded && lineEnd == '\n' && flush line && flush next then
    if breaks.isEmpty then [' '] else breaks
  else lineEnd :: breaks

/-- The lines of a block scalar from its first one on, and what lies behind them. -/
def blockLines (folded : Bool) (chomping : Chomping) (indent : Nat) :
    Nat → List Char → List Char × List Char
  | 0, s => ([], s)
  | fuel + 1, s =>
    let line := s.takeWhile fun c => !isBreak c
    match s.dropWhile fun c => !isBreak c with
    | [] => (line, [])
    | c :: rest =>
      let (breaks, column, rest) := indentedBreaks indent (rest.length + 1) rest
      if column = indent ∧ !rest.isEmpty then
        let (more, after) := blockLines folded chomping indent fuel rest
        (line ++ betweenLines folded line (breakText c) breaks rest ++ more, after)
      else
        let tail :=
          match chomping with
          | .strip => []
          | .clip => [breakText c]
          | .keep => breakText c :: breaks
        (line ++ tail, rest)

/-- A block scalar behind its mark. Its lines are indented more deeply than `parent`. -/
def blockScalar (folded : Bool) (parent : Int) (s : List Char) :
    Option (List Char × List Char) := do
  let (chomping, increment, rest) ← blockHead s
  let least := (max 1 (parent + 1)).toNat
  let fuel := rest.length + 1
  let (breaks, indent, column, rest) :=
    match increment with
    | some increment =>
      let indent := least + increment - 1
      let (breaks, column, rest) := indentedBreaks indent fuel rest
      (breaks, indent, column, rest)
    | none =>
      let (breaks, deepest, column, rest) := deepestIndent fuel rest
      (breaks, max least deepest, column, rest)
  if column = indent ∧ !rest.isEmpty then
    let (text, rest) := blockLines folded chomping indent fuel rest
    return (breaks ++ text, rest)
  else return (if chomping = .keep then breaks else [], rest)

end RouteTrim.Yaml
