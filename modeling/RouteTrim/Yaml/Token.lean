import RouteTrim.Yaml.Scalar

/-!
# Tokens of YAML

A YAML text as tokens, with the structure that indentation gives written out: the start and end of
every block collection is a token, and so is the place where a key begins. A key is only known for
one by the colon behind it, so each place where a key might begin is remembered until the line ends
or the colon comes, and its token is put in there.

Anchors, aliases and tags are not read.
-/

set_option autoImplicit false

namespace RouteTrim.Yaml

open RouteTrim.Text (singleQuote doubleQuote)

/-- A token. -/
inductive Token where
  /-- A directive; the version directive has the first number of its version. -/
  | directive (version : Option Nat)
  | documentStart
  | documentEnd
  | blockSequenceStart
  | blockMappingStart
  | blockEnd
  | flowSequenceStart
  | flowSequenceEnd
  | flowMappingStart
  | flowMappingEnd
  | flowEntry
  | blockEntry
  | key
  | value
  | scalar (text : String) (plain : Bool)
  deriving DecidableEq, Repr

/-- A place where a key may have begun. -/
structure KeyPlace where
  /-- The number of tokens in front of it. -/
  tokens : Nat
  /-- Whether nothing but a key can stand there. -/
  required : Bool
  index : Nat
  line : Nat
  column : Nat
  deriving Repr

/-- What has been read so far, and what may come. -/
structure Reading where
  cursor : Cursor
  /-- The tokens so far. -/
  tokens : Array Token
  /-- The column of the innermost open block collection; `-1` outside of all. -/
  indent : Int
  /-- The columns of the ones around it. -/
  outer : List Int
  /-- The number of open flow collections. -/
  flowLevel : Nat
  /-- Whether a key may begin here. -/
  keyAllowed : Bool
  /-- The places where a key may have begun, by flow level. -/
  keyPlaces : List (Nat × KeyPlace)
  deriving Repr

namespace Reading

/-- The start of a text. -/
def start (text : List Char) : Reading :=
  ⟨.start text, #[], -1, [], 0, true, []⟩

def inFlow (r : Reading) : Bool :=
  0 < r.flowLevel

/-- Adds a token. -/
def push (token : Token) (r : Reading) : Reading :=
  { r with tokens := r.tokens.push token }

/-- Moves on by some characters. -/
def forward (n : Nat) (r : Reading) : Reading :=
  { r with cursor := r.cursor.advance n }

/-- Moves on to where the given characters begin. -/
def moveTo (rest : List Char) (r : Reading) : Reading :=
  { r with cursor := r.cursor.moveTo rest }

/-! ## Blanks and comments -/

/-- Passes over blanks, comments and line ends. Outside of flow collections a key may begin on a
new line. -/
def skipBlanks : Nat → Reading → Reading
  | 0, r => r
  | fuel + 1, r =>
    let rest := r.cursor.rest.dropWhile (· == ' ')
    let rest := if rest.head? = some '#' then rest.dropWhile (fun c => !isBreak c) else rest
    match rest with
    | [] => r.moveTo []
    | c :: _ =>
      if isBreak c then
        let r := (r.moveTo rest).forward 1
        skipBlanks fuel { r with keyAllowed := r.keyAllowed || !r.inFlow }
      else r.moveTo rest

/-- Passes over a byte order mark at the very start, and over blanks. -/
def toNextToken (r : Reading) : Reading :=
  let atMark := r.cursor.index == 0 && r.cursor.rest.head?.any fun c => c.toNat == 0xFEFF
  let r := if atMark then r.forward 1 else r
  r.skipBlanks (r.cursor.rest.length + 1)

/-! ## Places where a key may begin -/

/-- Forgets the places on earlier lines or too far back; one that must be a key is a fault. -/
def dropStalePlaces (r : Reading) : Option Reading :=
  let stale (place : KeyPlace) : Bool :=
    place.line != r.cursor.line || decide (1024 < r.cursor.index - place.index)
  if r.keyPlaces.any fun (_, place) => stale place && place.required then none
  else some { r with keyPlaces := r.keyPlaces.filter fun (_, place) => !stale place }

/-- Forgets the place on the current flow level; one that must be a key is a fault. -/
def dropPlace (r : Reading) : Option Reading :=
  match r.keyPlaces.lookup r.flowLevel with
  | some place =>
    if place.required then none
    else some { r with keyPlaces := r.keyPlaces.filter fun (level, _) => level != r.flowLevel }
  | none => some r

/-- Remembers this place, if a key may begin here. -/
def savePlace (r : Reading) : Option Reading :=
  if r.keyAllowed then do
    let required := !r.inFlow && r.indent == r.cursor.column
    let r ← r.dropPlace
    let place := ⟨r.tokens.size, required, r.cursor.index, r.cursor.line, r.cursor.column⟩
    return { r with keyPlaces := (r.flowLevel, place) :: r.keyPlaces }
  else some r

/-- Settles whether a key may begin next. -/
def allowKey (allowed : Bool) (r : Reading) : Reading :=
  { r with keyAllowed := allowed }

/-! ## Indentation -/

/-- Ends the block collections that are indented more deeply than a column. -/
def unwindTo (column : Int) : List Int → Reading → Reading
  | [], r => r
  | indent :: outer, r =>
    if column < r.indent then
      unwindTo column outer { r.push .blockEnd with indent, outer }
    else r

/-- Ends the block collections that are indented more deeply than a column. Inside flow collections
indentation means nothing. -/
def unwind (column : Int) (r : Reading) : Reading :=
  if r.inFlow then r else r.unwindTo column r.outer

/-- Begins a block collection in front of a number of tokens, if a column is indented more deeply
than the current one. -/
def indentAt (position column : Nat) (token : Token) (r : Reading) : Reading :=
  if r.indent < column then
    { r with
      tokens := r.tokens.toList.take position ++ token :: r.tokens.toList.drop position |>.toArray
      indent := column
      outer := r.indent :: r.outer }
  else r

/-- Begins a block collection here, if the column is indented more deeply than the current one. -/
def indentHere (token : Token) (r : Reading) : Reading :=
  r.indentAt r.tokens.size r.cursor.column token

/-! ## The tokens one by one -/

/-- A mark between documents. -/
def readSeparator (token : Token) (r : Reading) : Option Reading := do
  let r ← (r.unwind (-1)).dropPlace
  return ((r.allowKey false).forward 3).push token

/-- The digits at the front of a text as a number. -/
def number? (s : List Char) : Option (Nat × List Char) :=
  let digits := s.takeWhile Char.isDigit
  if digits.isEmpty then none
  else some (Nat.ofDigitChars 10 digits 0, s.dropWhile Char.isDigit)

/-- The version behind a version directive; its first number counts. -/
def version? (s : List Char) : Option (Nat × List Char) := do
  match ← number? (s.dropWhile (· == ' ')) with
  | (major, '.' :: rest) =>
    let (_, rest) ← number? rest
    if endsOr (fun c => c == ' ' || isBreak c) rest then return (major, rest) else none
  | _ => none

/-- A directive behind its percent sign. Directives for tags are not read. -/
def directive? (s : List Char) : Option (Option Nat × List Char) := do
  let isNameChar (c : Char) : Bool := c.isAlphanum || c == '-' || c == '_'
  let name := s.takeWhile isNameChar
  let rest := s.dropWhile isNameChar
  if name.isEmpty || !endsOr (fun c => c == ' ' || isBreak c) rest then none
  else if name = "YAML".toList then
    let (major, rest) ← version? rest
    return (some major, ← skipRestOfLine rest)
  else if name = "TAG".toList then none
  else return (none, ← skipRestOfLine (rest.dropWhile fun c => !isBreak c))

def readDirective (r : Reading) : Option Reading := do
  let r ← (r.unwind (-1)).dropPlace
  let (version, rest) ← directive? (r.cursor.rest.drop 1)
  return ((r.allowKey false).moveTo rest).push (.directive version)

/-- The start of a flow collection. -/
def openFlow (token : Token) (r : Reading) : Option Reading := do
  let r ← r.savePlace
  return ({ r with flowLevel := r.flowLevel + 1, keyAllowed := true }.forward 1).push token

/-- The end of a flow collection. -/
def closeFlow (token : Token) (r : Reading) : Option Reading := do
  let r ← r.dropPlace
  if r.flowLevel = 0 then none
  return ({ r with flowLevel := r.flowLevel - 1, keyAllowed := false }.forward 1).push token

/-- The comma in a flow collection. -/
def readFlowEntry (r : Reading) : Option Reading := do
  let r ← (r.allowKey true).dropPlace
  return (r.forward 1).push .flowEntry

/-- The dash in front of an item. -/
def readBlockEntry (r : Reading) : Option Reading := do
  if !r.inFlow && !r.keyAllowed then none
  let r := if r.inFlow then r else r.indentHere .blockSequenceStart
  let r ← (r.allowKey true).dropPlace
  return (r.forward 1).push .blockEntry

/-- The question mark in front of a key. -/
def readKey (r : Reading) : Option Reading := do
  if !r.inFlow && !r.keyAllowed then none
  let r := if r.inFlow then r else r.indentHere .blockMappingStart
  let r ← (r.allowKey (!r.inFlow)).dropPlace
  return (r.forward 1).push .key

/-- The colon in front of a value. What stands at the remembered place is its key. -/
def readValue (r : Reading) : Option Reading := do
  match r.keyPlaces.lookup r.flowLevel with
  | some place =>
    let tokens := r.tokens.toList.take place.tokens ++ .key :: r.tokens.toList.drop place.tokens
    let r :=
      { r with
        tokens := tokens.toArray
        keyPlaces := r.keyPlaces.filter fun (level, _) => level != r.flowLevel }
    let r := if r.inFlow then r else r.indentAt place.tokens place.column .blockMappingStart
    return ((r.allowKey false).forward 1).push .value
  | none =>
    if !r.inFlow && !r.keyAllowed then none
    let r := if r.inFlow then r else r.indentHere .blockMappingStart
    return ((r.allowKey (!r.inFlow)).forward 1).push .value

def readBlock (folded : Bool) (r : Reading) : Option Reading := do
  let r ← (r.allowKey true).dropPlace
  let (text, rest) ← blockScalar folded r.indent (r.cursor.rest.drop 1)
  return (r.moveTo rest).push (.scalar (String.ofList text) false)

def readQuoted (quote : Char) (r : Reading) : Option Reading := do
  let r ← r.savePlace
  let s := r.cursor.rest.drop 1
  let (text, rest) ← quotedScalar quote (s.length + 1) s
  return ((r.allowKey false).moveTo rest).push (.scalar (String.ofList text) false)

/-- A plain scalar. Behind a line end a key may begin. -/
def readPlain (r : Reading) : Option Reading := do
  let r ← r.savePlace
  let s := r.cursor.rest
  let scalar := plainScalar r.inFlow (r.indent + 1) (s.length + 1) s
  return ((r.allowKey scalar.lineEnds).moveTo scalar.rest).push
    (.scalar (String.ofList scalar.text) true)

def startsPlain (inFlow : Bool) (c : Char) (rest : List Char) : Bool :=
  !(isGap c || isBreak c || "-?:,[]\x7b\x7d#&*!|>'\"%@".toList.contains c || c.toNat == 0x60)
    || (!atWordEnd rest && (c == '-' || (!inFlow && (c == '?' || c == ':'))))

/-- The token that starts with a character. -/
def readToken (c : Char) (rest : List Char) (r : Reading) : Option Reading :=
  let separates := r.cursor.column == 0 && atSeparator (c :: rest)
  let indicates := r.inFlow || atWordEnd rest
  if c = '%' ∧ r.cursor.column = 0 then r.readDirective
  else if c = '-' ∧ separates then r.readSeparator .documentStart
  else if c = '.' ∧ separates then r.readSeparator .documentEnd
  else if c = '[' then r.openFlow .flowSequenceStart
  else if c = '\x7b' then r.openFlow .flowMappingStart
  else if c = ']' then r.closeFlow .flowSequenceEnd
  else if c = '\x7d' then r.closeFlow .flowMappingEnd
  else if c = ',' then r.readFlowEntry
  else if c = '-' ∧ atWordEnd rest then r.readBlockEntry
  else if c = '?' ∧ indicates then r.readKey
  else if c = ':' ∧ indicates then r.readValue
  else if c = '|' ∧ !r.inFlow then r.readBlock false
  else if c = '>' ∧ !r.inFlow then r.readBlock true
  else if c = singleQuote ∨ c = doubleQuote then r.readQuoted c
  else if startsPlain r.inFlow c rest then r.readPlain
  else none

/-- All tokens from here on. -/
def readAll : Nat → Reading → Option (Array Token)
  | 0, _ => none
  | fuel + 1, r => do
    let r ← r.toNextToken.dropStalePlaces
    let r := r.unwind r.cursor.column
    match r.cursor.rest with
    | [] =>
      let r ← (r.unwind (-1)).dropPlace
      return r.tokens
    | c :: rest => (← r.readToken c rest).readAll fuel

end Reading

def tokens? (text : List Char) : Option (List Token) :=
  if text.all isAllowed then
    ((Reading.start text).readAll (text.length + 1)).map Array.toList
  else none

end RouteTrim.Yaml
