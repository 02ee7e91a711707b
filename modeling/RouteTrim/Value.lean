import RouteTrim.Decimal.Shortest
import RouteTrim.Text.Quoted

/-!
# Values of data files

Dependency reports and settings files hold data of no fixed shape: scalars, lists and maps. A map
keeps its keys in the order of their first appearance and holds each key once. Two texts of a
value appear in messages and results: `display`, which shows a text bare, and `literal`, which
quotes it.
-/

set_option autoImplicit false

namespace RouteTrim

open RouteTrim.Decimal (Binary64)

/-- A value read from a data file. -/
inductive Value where
  | null
  | bool (b : Bool)
  | int (n : Int)
  | float (x : Binary64)
  | text (s : String)
  | list (items : List Value)
  | map (entries : List (Value × Value))
  deriving Repr, Inhabited

/-- Why a text is not read as a value. -/
inductive Unread where
  /-- It breaks the rules of its format. -/
  | malformed
  /-- It goes beyond what the reader can hold: nested too deeply, or with a number too long. -/
  | beyondLimits
  deriving DecidableEq, Repr

namespace Value

def typeName : Value → String
  | null => "NoneType"
  | bool _ => "bool"
  | int _ => "int"
  | float _ => "float"
  | text _ => "str"
  | list _ => "list"
  | map _ => "dict"

/-- Whether the value counts as given: not null, false, zero or empty. -/
def isTruthy : Value → Bool
  | null => false
  | bool b => b
  | int n => n != 0
  | float x => !x.isZero
  | text s => !s.isEmpty
  | list items => !items.isEmpty
  | map entries => !entries.isEmpty

/-- The number that a scalar counts as when keys are compared; the truth values count as 0 and 1. -/
def number? : Value → Option Int
  | bool b => some (if b then 1 else 0)
  | int n => some n
  | float x => x.toInt?
  | _ => none

/-- Whether two scalars are the same key of a map. -/
def sameKey : Value → Value → Bool
  | text a, text b => a == b
  | null, null => true
  | float x, float y => x == y || (x.isZero && y.isZero)
  | a, b =>
    match a.number?, b.number? with
    | some m, some n => m == n
    | _, _ => false

/-- Sets a key of a map. A key that is present keeps its place. -/
def put : List (Value × Value) → Value → Value → List (Value × Value)
  | [], key, value => [(key, value)]
  | (k, v) :: entries, key, value =>
    if sameKey k key then (k, value) :: entries else (k, v) :: put entries key value

/-- The value that a map holds under a text. -/
def field? (name : String) : List (Value × Value) → Option Value
  | [] => none
  | (key, value) :: entries => if sameKey key (.text name) then some value else field? name entries

/-- The entries of a map read in order; a key read again takes its last value. -/
def ofEntries (entries : List (Value × Value)) : Value :=
  .map (entries.foldl (fun map (key, value) => put map key value) [])

mutual

/-- The text of a value inside a message: texts are quoted. -/
def literal : Value → String
  | null => "None"
  | bool b => if b then "True" else "False"
  | int n => toString n
  | float x => x.render
  | text s => String.ofList (Text.quoted s.toList)
  | list items => "[" ++ ", ".intercalate (literals items) ++ "]"
  | map entries => "\x7b" ++ ", ".intercalate (entryLiterals entries) ++ "\x7d"

/-- The texts of a list's items. -/
def literals : List Value → List String
  | [] => []
  | item :: items => literal item :: literals items

/-- The texts of a map's entries. -/
def entryLiterals : List (Value × Value) → List String
  | [] => []
  | (key, value) :: entries => (literal key ++ ": " ++ literal value) :: entryLiterals entries

end

/-- The text of a value by itself: a text is shown as it is. -/
def display : Value → String
  | text s => s
  | v => literal v

end Value

end RouteTrim
