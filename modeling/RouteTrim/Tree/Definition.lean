import RouteTrim.Tree.TypeExpr

/-!
# Functions and classes

What declarations and expressions have in common: bodies, functions, methods and classes. A class
node holds its decorators, its name, its type parameters, what it extends and implements, and its
body, in this order.
-/

set_option autoImplicit false

namespace RouteTrim.Tree

namespace Definition

open Parse Literal Signature TypeExpr

/-- Statements in braces. -/
def block (g : Grammar) : Parse Node := do
  let start ← tokenStart
  mark "\x7b"
  let statements ← many do
    match ← peek with
    | .mark "\x7d" => return none
    | .finish => return none
    | _ => return some (← g.statement)
  mark "\x7d"
  node .block start statements

/-- A function from `async` or `function` on. `kind` is the kind of a function that is no
generator; a declaration may lack its body. -/
def function (g : Grammar) (kind generatorKind : Kind) : Parse Node := do
  let start ← tokenStart
  let _ ← acceptWord "async"
  word "function"
  let generator ← acceptMark "*"
  let name ← match ← peek with
    | .word _ => pure [(← leaf .identifier).withRole .name]
    | _ => pure []
  let signature ← callSignature g
  let body ← ifMark "\x7b" (block g)
  node (if generator then generatorKind else kind) start (name ++ signature ++ body)

/-- The words that may stand in front of the name of a class member. -/
def memberModifiers : List String :=
  ["declare", "public", "private", "protected", "static", "override", "readonly", "abstract",
   "async", "accessor", "get", "set"]

/-- The words that may stand in front of the name of a method in an object. -/
def methodModifiers : List String :=
  ["static", "readonly", "async", "get", "set"]

def classMember (g : Grammar) : Parse Node := do
  let start ← tokenStart
  let decorators ← decorators g
  skipModifiers memberModifiers fun token => !endsMemberName token
  if (← peek) = .mark "\x7b" then
    let body ← block g
    node .staticBlock start (decorators ++ [body])
  else
    let _ ← acceptMark "*"
    match ← attempt (indexKey g) with
    | some key =>
      let typed ← ifMark ":" (typeClause g)
      node .indexSignature start (decorators ++ key ++ typed)
    | none =>
      let name ← propertyName g
      if !(← acceptMark "?") then
        let _ ← acceptMark "!"
      match ← peek with
      | .mark "(" | .mark "<" =>
        let signature ← callSignature g
        let body ← ifMark "\x7b" (block g)
        node .methodDefinition start (decorators ++ name.withRole .name :: signature ++ body)
      | _ =>
        let typed ← ifMark ":" (typeClause g)
        let value ← initializer g
        node .fieldDefinition start (decorators ++ name.withRole .name :: typed ++ value)

/-- The members of a class, in braces. -/
def classBody (g : Grammar) : Parse Node := do
  let start ← tokenStart
  mark "\x7b"
  let members ← many do
    match ← peek with
    | .mark "\x7d" => return none
    | .finish => return none
    | .mark ";" =>
      let _ ← next
      return some none
    | _ => return some (some (← classMember g))
  mark "\x7d"
  node .classBody start (members.filterMap id)

/-- A list behind a word, with commas between the items. -/
def wordList (text : String) (p : Parse Node) : Parse (List Node) := do
  if ← acceptWord text then
    let first ← p
    let more ← many do
      if ← acceptMark "," then return some (← p) else return none
    return first :: more
  else return []

/-- What a class extends and implements. -/
def heritage (g : Grammar) : Parse (List Node) := do
  let start ← tokenStart
  let clause (p : Parse (List Node)) : Parse (List Node) := do
    let start ← tokenStart
    let items ← p
    if items.isEmpty then return [] else return [← node .heritageClause start items]
  let extended ← clause do
    if ← acceptWord "extends" then
      let base ← g.operand
      let types ← ifMark "<" (typeArguments g)
      return base :: types
    else return []
  let implemented ← clause (wordList "implements" g.type)
  let clauses := extended ++ implemented
  if clauses.isEmpty then return [] else return [← node .classHeritage start clauses]

/-- A class from the word `class` on, behind its decorators and modifiers. `kind` gives its kind
by whether it has a name. -/
def classTail (g : Grammar) (start : Nat) (decorators : List Node) (kind : Bool → Kind) :
    Parse Node := do
  word "class"
  let name ← match ← peek with
    | .word text =>
      if text == "extends" || text == "implements" then pure []
      else pure [(← leaf .typeIdentifier).withRole .name]
    | _ => pure []
  let types ← ifMark "<" (typeParameters g)
  let heritage ← heritage g
  let body ← classBody g
  node (kind (!name.isEmpty)) start (decorators ++ name ++ types ++ heritage ++ [body])

end Definition

end RouteTrim.Tree
