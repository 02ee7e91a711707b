import RouteTrim.Text.Search
import RouteTrim.Value
import RouteTrim.Yaml.Node
import RouteTrim.Yaml.Reader

/-!
# What a document means

A quoted or block scalar is a text. A plain one may be the word for a truth value or for nothing, or
a number: whole numbers in binary, octal, decimal, hexadecimal or sexagesimal form, and numbers with
a point. Underscores may stand between digits. Everything else is a text.

Keys of a mapping must be scalars; a key that is repeated takes its last value. The key `<<` takes
over the entries of another mapping or of several.
-/

set_option autoImplicit false

namespace RouteTrim.Yaml

open RouteTrim.Decimal (Binary64)
open RouteTrim.Text (dropLeading? split)

/-! ## Words -/

def trueWords : List String :=
  ["yes", "Yes", "YES", "true", "True", "TRUE", "on", "On", "ON"]

def falseWords : List String :=
  ["no", "No", "NO", "false", "False", "FALSE", "off", "Off", "OFF"]

def nullWords : List String :=
  ["", "~", "null", "Null", "NULL"]

/-! ## Numbers -/

/-- Whether a text is a non-empty run of characters of a class. -/
def isRun (p : Char → Bool) (s : List Char) : Bool :=
  !s.isEmpty && s.all p

def isDigitMark (c : Char) : Bool :=
  c.isDigit || c == '_'

def isDigitRun (s : List Char) : Bool :=
  s.head?.any Char.isDigit && s.all isDigitMark

def digitsOf (s : List Char) : List Char :=
  s.filter (· != '_')

/-- The number that digits write in a base. -/
def ofDigits (base : Nat) (s : List Char) : Nat :=
  (digitsOf s).foldl (fun n c => base * n + (hexDigit? c).getD 0) 0

/-- The sign in front of a number, and what follows it. -/
def readSign : List Char → Bool × List Char
  | '-' :: rest => (true, rest)
  | '+' :: rest => (false, rest)
  | s => (false, s)

/-- Whether a text is a place below the first of a sexagesimal number. -/
def isSixtieth : List Char → Bool
  | [d] => d.isDigit
  | [t, d] => '0' ≤ t && t ≤ '5' && d.isDigit
  | _ => false

def wholeSize? (s : List Char) : Option Nat :=
  match s with
  | '0' :: 'b' :: rest =>
    if isRun (fun c => c == '0' || c == '1' || c == '_') rest then some (ofDigits 2 rest) else none
  | '0' :: 'x' :: rest =>
    if isRun (fun c => (hexDigit? c).isSome || c == '_') rest then some (ofDigits 16 rest) else none
  | '0' :: rest =>
    if rest.all fun c => ('0' ≤ c && c ≤ '7') || c == '_' then some (ofDigits 8 rest) else none
  | _ =>
    match split ':' s with
    | first :: places =>
      if isDigitRun first && places.all isSixtieth then
        some (places.foldl (fun n place => 60 * n + ofDigits 10 place) (ofDigits 10 first))
      else none
    | [] => none

def whole? (s : List Char) : Option Int :=
  let (negative, rest) := readSign s
  (wholeSize? rest).map fun n => if negative then -(n : Int) else n

/-- An exponent, which has a sign; nothing at the end of the text is the exponent zero. -/
def exponent? : List Char → Option Int
  | [] => some 0
  | e :: sign :: digits =>
    if (e = 'e' ∨ e = 'E') ∧ (sign = '+' ∨ sign = '-') ∧ isRun Char.isDigit digits then
      some (if sign = '-' then -(ofDigits 10 digits : Int) else ofDigits 10 digits)
    else none
  | [_] => none

/-- The number of a decimal with a point: `whole` in front of it, `rest` behind it. -/
def pointed? (negative : Bool) (whole rest : List Char) : Option Binary64 := do
  let part := rest.takeWhile isDigitMark
  let exponent ← exponent? (rest.dropWhile isDigitMark)
  let digits := digitsOf (whole ++ part)
  return .ofDecimal negative (ofDigits 10 digits) (exponent - (digitsOf part).length)

/-- A sexagesimal number with a point: the places above the last one, and the last one. The sum is
rounded once. -/
def sexagesimal? (negative : Bool) (places : List (List Char)) (whole part : List Char) :
    Option Binary64 :=
  match places with
  | [] => none
  | first :: more =>
    if isDigitRun first && (more ++ [whole]).all isSixtieth && part.all isDigitMark then
      let above := more.foldl (fun n place => 60 * n + ofDigits 10 place) (ofDigits 10 first)
      let decimals := digitsOf part
      let below := ofDigits 10 (whole ++ decimals)
      some (.ofDecimal negative (above * 60 * Nat.pow 10 decimals.length + below) (-decimals.length))
    else none

/-- A number with a point, or one of the words for what is no finite number. -/
def fraction? (s : List Char) : Option Binary64 :=
  let (negative, rest) := readSign s
  let signed := rest.length != s.length
  let front := rest.takeWhile (· != '.')
  match rest.dropWhile (· != '.') with
  | [] => none
  | _ :: behind =>
    if [".inf", ".Inf", ".INF"].any fun word => word.toList == rest then
      some (.infinite negative)
    else if !signed && [".nan", ".NaN", ".NAN"].any fun word => word.toList == rest then
      some .notANumber
    else if front.isEmpty then
      if !signed && behind.head?.any Char.isDigit then pointed? false [] behind else none
    else if isDigitRun front then pointed? negative front behind
    else
      let places := split ':' front
      sexagesimal? negative places.dropLast (places.getLastD []) behind

/-! ## Scalars and collections -/

/-- The key that takes over other mappings. -/
def isMergeKey : Node → Bool
  | .scalar "<<" true => true
  | _ => false

/-- The value of a plain scalar. A lone equals sign has none. -/
def plainValue? (text : String) : Option Value :=
  if text ∈ trueWords then some (.bool true)
  else if text ∈ falseWords then some (.bool false)
  else if text ∈ nullWords then some .null
  else if text = "=" ∨ text = "<<" then none
  else
    match fraction? text.toList, whole? text.toList with
    | some x, _ => some (.float x)
    | none, some n => some (.int n)
    | none, none => some (.text text)

def isKey : Value → Bool
  | .list _ | .map _ => false
  | _ => true

/-- The entries that a merge key takes over: those of a mapping, or those of several, the last one
first. -/
def mergedEntries? : Value → Option (List (Value × Value))
  | .map entries => some entries
  | .list items => do
    let maps ← items.mapM fun item =>
      match item with
      | .map entries => some entries
      | _ => none
    return maps.reverse.flatten
  | _ => none

/-- A mapping's entries in the order in which they are set: first what merge keys take over. -/
def arrangeEntries? (entries : List (Node × Value × Value)) : Option (List (Value × Value)) := do
  let (merges, own) := entries.partition fun entry => isMergeKey entry.1
  let merged ← merges.mapM fun entry => mergedEntries? entry.2.2
  if own.all fun entry => isKey entry.2.1 then return merged.flatten ++ own.map Prod.snd
  else none

mutual

def value? : Node → Option Value
  | .scalar text plain => if plain then plainValue? text else some (.text text)
  | .sequence items => (values? items).map .list
  | .mapping entries => entryValues? entries >>= arrangeEntries? |>.map Value.ofEntries

/-- The values of a sequence's items. -/
def values? : List Node → Option (List Value)
  | [] => some []
  | node :: nodes => do
    let value ← value? node
    return value :: (← values? nodes)

/-- The keys and values of a mapping's entries. As a key, a lone equals sign is a text, and a merge
key needs no value of its own. -/
def entryValues? : List (Node × Node) → Option (List (Node × Value × Value))
  | [] => some []
  | (key, value) :: entries => do
    let name ←
      match key with
      | .scalar text true =>
        if text = "=" ∨ text = "<<" then some (.text text) else plainValue? text
      | _ => value? key
    let content ← value? value
    return (key, name, content) :: (← entryValues? entries)

end

/-- The value of the one document of a text; a text without any stands for nothing. -/
def read? (text : String) : Option Value := do
  match ← Node.ofTokens? (← tokens? text.toList) with
  | some node => value? node
  | none => return .null

/-- Settings files are read as these modules say. There is no limit to what is read. -/
instance meaningReader : Reader where
  read text := (read? text).elim (.error .malformed) .ok

end RouteTrim.Yaml
