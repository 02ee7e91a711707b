import RouteTrim.Tree.Signature

/-!
# Types

Types are read to know where they end and because expressions and object literals may stand inside
them: computed member names, `typeof import(..)`. The keyword `object` is a node of its own, an
object without members.
-/

set_option autoImplicit false

namespace RouteTrim.Tree

namespace TypeExpr

open Parse Literal Signature

def functionType (g : Grammar) : Parse Node := do
  let start ← tokenStart
  let _ ← acceptWord "abstract"
  let _ ← acceptWord "new"
  let types ← ifMark "<" (typeParameters g)
  let parameters ← formalParameters g
  mark "=>"
  let result ← g.type
  node .typeExpression start (types ++ [parameters, result])

/-- Whether a token lets the word in front of it be a member's name. -/
def endsMemberName : Token → Bool
  | .mark text => [":", "?", "(", "<", ";", ",", "\x7d", "=", "!"].contains text
  | .finish => true
  | _ => false

/-- The name in an index signature or mapped type, with its brackets. -/
def indexKey (g : Grammar) : Parse (List Node) := do
  mark "["
  let _ ← wordLeaf .identifier
  let type ←
    if ← acceptMark ":" then g.type
    else
      word "in"
      g.type
  let renamed ← if ← acceptWord "as" then pure [← g.type] else pure []
  mark "]"
  return type :: renamed

/-- A member of an object type or interface. -/
def member (g : Grammar) : Parse Node := do
  let start ← tokenStart
  let _ ← acceptMark "+"
  let _ ← acceptMark "-"
  skipModifiers ["readonly", "get", "set", "static"] fun token => !endsMemberName token
  let name ←
    match ← peek with
    | .mark "(" => pure []
    | .mark "<" => pure []
    | .mark "[" =>
      match ← attempt (indexKey g) with
      | some nodes => pure nodes
      | none => pure [← propertyName g]
    | .word "new" =>
      match ← peekSecond with
      | .mark "(" | .mark "<" =>
        let _ ← next
        pure []
      | _ => pure [← propertyName g]
    | _ => pure [← propertyName g]
  let _ ← acceptMark "+"
  let _ ← acceptMark "-"
  let _ ← acceptMark "?"
  let signature ←
    match ← peek with
    | .mark "(" | .mark "<" => callSignature g
    | _ => ifMark ":" (typeClause g)
  node .typeExpression start (name ++ signature)

def objectType (g : Grammar) : Parse Node := do
  let start ← tokenStart
  mark "\x7b"
  let members ← many do
    match ← peek with
    | .mark "\x7d" => return none
    | .finish => return none
    | .mark ";" | .mark "," =>
      let _ ← next
      return some none
    | _ => return some (some (← member g))
  mark "\x7d"
  node .objectType start (members.filterMap id)

def tupleElement (g : Grammar) : Parse Node := do
  let _ ← acceptMark "..."
  let _ ← attempt do
    let _ ← wordLeaf .identifier
    let _ ← acceptMark "?"
    mark ":"
  let type ← g.type
  let _ ← acceptMark "?"
  return type

def importCall (g : Grammar) : Parse Node := do
  let start ← tokenStart
  word "import"
  let keyword ← node .importKeyword start []
  let arguments ← arguments g
  node .callExpression start [keyword.withRole .callee, arguments.withRole .arguments]

/-- The words for types that are part of the language. -/
def predefinedTypes : List String :=
  ["any", "number", "boolean", "string", "symbol", "void", "unknown", "never", "object"]

/-- A type by name, with its arguments. A `<` that opens no list of types compares what is in front
of it. -/
def namedType (g : Grammar) : Parse Node := do
  let start ← tokenStart
  let head ←
    if (← peek) = .word "import" then importCall g else wordLeaf .typeIdentifier
  let names ← many do
    if ← acceptMark "." then return some (← wordLeaf .typeIdentifier) else return none
  let arguments ← attempt (typeArguments g)
  if names.isEmpty && arguments.isNone then return head
  else node .typeExpression start (head :: names ++ arguments.toList)

def primaryType (g : Grammar) : Parse Node := do
  let start ← tokenStart
  match ← peek with
  | .number => leaf .number
  | .word text =>
    if predefinedTypes.contains text then
      let keyword ← leaf (if text == "object" then .object else .typeIdentifier)
      node .predefinedType start (if text == "object" then [keyword] else [])
    else namedType g
  | .mark "(" =>
    mark "("
    let inner ← g.type
    mark ")"
    node .typeExpression start [inner]
  | .mark "[" =>
    mark "["
    let elements ← listUntil "]" (tupleElement g)
    node .typeExpression start elements
  | .mark "\x7b" => objectType g
  | .mark "-" =>
    mark "-"
    let number ← leaf .number
    node .typeExpression start [number]
  | _ =>
    match ← attempt string with
    | some text => return text
    | none => template { g with expression := g.type }

def indexedType (g : Grammar) : Parse Node := do
  let start ← tokenStart
  let first ← primaryType g
  iterate (fun type => do
    if (← peek) = .mark "[" && !(← lineEndAhead) then
      mark "["
      let index ← if (← peek) = .mark "]" then pure [] else pure [← g.type]
      mark "]"
      some <$> node .typeExpression start (type :: index)
    else return none) first

/-- What follows `typeof`: a dotted name or an import, with type arguments. -/
def typeQuery (g : Grammar) : Parse Node := do
  let start ← tokenStart
  word "typeof"
  let target ← namedType g
  node .typeExpression start [target]

/-- A type that a pattern of types leaves open: `infer`, its name and perhaps a bound. -/
def inferredType (g : Grammar) : Parse Node := do
  let start ← tokenStart
  word "infer"
  let name ← wordLeaf .typeIdentifier
  let bound ← if ← acceptWord "extends" then pure [← g.type] else pure []
  node .typeExpression start (name :: bound)

/-- Whether a type that is left open comes next. -/
def inferredAhead : Parse Bool := do
  if (← peek) = .word "infer" then
    match ← peekSecond with
    | .word text => return text != "extends"
    | _ => return false
  else return false

def prefixedType (g : Grammar) : Parse Node := do
  let start ← tokenStart
  let operators ← many do
    match ← peek with
    | .word text =>
      if ["keyof", "unique", "readonly"].contains text then
        match ← peekSecond with
        | .mark "(" | .mark "[" | .mark "\x7b" | .word _ =>
          let _ ← next
          return some ()
        | _ => return none
      else return none
    | _ => return none
  let type ←
    if (← peek) = .word "typeof" then
      let query ← typeQuery g
      iterate (fun type => do
        if (← peek) = .mark "[" && !(← lineEndAhead) then
          mark "["
          let index ← if (← peek) = .mark "]" then pure [] else pure [← g.type]
          mark "]"
          some <$> node .typeExpression start (type :: index)
        else return none) query
    else if ← inferredAhead then inferredType g
    else indexedType g
  if operators.isEmpty then return type else node .typeExpression start [type]

/-- Types with an operator between them; one may also stand in front of the first. -/
def joinedTypes (operator : String) (p : Parse Node) : Parse Node := do
  let start ← tokenStart
  let leading ← acceptMark operator
  let first ← p
  let more ← many do
    if ← acceptMark operator then return some (← p) else return none
  if more.isEmpty && !leading then return first
  else node .typeExpression start (first :: more)

def unionType (g : Grammar) : Parse Node :=
  joinedTypes "|" (joinedTypes "&" (prefixedType g))

def guardedType (g : Grammar) : Parse (List Node) := do
  if (← peek) = .word "is" && !(← lineEndAhead) then
    let _ ← next
    return [← g.type]
  else return []

def assertsType (g : Grammar) : Parse Node := do
  let start ← tokenStart
  word "asserts"
  if ← lineEndAhead then fail
  let name ← wordLeaf .identifier
  let guarded ← guardedType g
  node .typeExpression start (name :: guarded)

def boundType (g : Grammar) : Parse Node := do
  match ← attempt (functionType g) with
  | some type => return type
  | none => unionType g

def conditionalType (g : Grammar) : Parse Node := do
  let start ← tokenStart
  let checked ← unionType g
  let guarded ← guardedType g
  if !guarded.isEmpty then node .typeExpression start (checked :: guarded)
  else
    let conditional ← attempt do
      if ← lineEndAhead then fail
      word "extends"
      let bound ← boundType g
      mark "?"
      let positive ← g.type
      mark ":"
      let negative ← g.type
      node .typeExpression start [checked, bound, positive, negative]
    return conditional.getD checked

def type (g : Grammar) : Parse Node := do
  match ← attempt (functionType g) with
  | some type => return type
  | none =>
    if (← peek) = .word "asserts" then
      match ← attempt (assertsType g) with
      | some type => return type
      | none => conditionalType g
    else conditionalType g

end TypeExpr

end RouteTrim.Tree
