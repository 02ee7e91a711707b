import RouteTrim.Tree.Definition

/-!
# Primary expressions

Names, literals, and what stands in brackets or starts with a word of its own: objects, arrays,
functions, classes, creations of objects.
-/

set_option autoImplicit false

namespace RouteTrim.Tree

namespace Primary

open Parse Literal Signature Definition

def objectMember (g : Grammar) : Parse Node := do
  let start ← tokenStart
  if ← acceptMark "..." then
    let inner ← g.expression
    node .spreadElement start [inner]
  else
    skipModifiers methodModifiers fun token => !TypeExpr.endsMemberName token
    let generator ← acceptMark "*"
    let isWord := match ← peek with
      | .word _ => true
      | _ => false
    let key ← propertyName g
    if generator then
      let signature ← callSignature g
      let body ← block g
      node .methodDefinition start (key.withRole .name :: signature ++ [body])
    else
      match ← peek with
      | .mark ":" =>
        mark ":"
        let value ← g.expression
        node .pair start [key.withRole .key, value.withRole .value]
      | .mark "," | .mark "\x7d" =>
        if isWord then node .shorthandProperty start [] else fail
      | .mark "=" =>
        let name ← node .shorthandPattern start []
        let value ← initializer g
        node .defaultedShorthand start (name :: value)
      | _ =>
        let _ ← acceptMark "?"
        let signature ← callSignature g
        let body ← block g
        node .methodDefinition start (key.withRole .name :: signature ++ [body])

/-- An object literal. -/
def object (g : Grammar) : Parse Node := do
  let start ← tokenStart
  mark "\x7b"
  let members ← listUntil "\x7d" (objectMember g)
  node .object start members

def array (g : Grammar) : Parse Node := do
  let start ← tokenStart
  mark "["
  let elements ← listUntil "]" (spreadable g)
  node .array start elements

/-- Expressions in parentheses. -/
def parenthesized (g : Grammar) : Parse Node := do
  let start ← tokenStart
  mark "("
  let inner ← g.expressions
  mark ")"
  node .parenthesizedExpression start [inner]

def memberName : Parse Node := do
  let name ← if (← peek) = .mark "#" then privateName else wordLeaf .propertyIdentifier
  return name.withRole .property

def index (g : Grammar) : Parse Node := do
  mark "["
  let inner ← g.expressions
  mark "]"
  return inner

/-- An object creation: the class with accesses behind it, and its arguments. -/
def creation (g : Grammar) : Parse Node := do
  let start ← tokenStart
  word "new"
  if ← acceptMark "." then
    let _ ← wordLeaf .identifier
    node .metaProperty start []
  else
    let calleeStart ← tokenStart
    let base ← g.primary
    let callee ← iterate (fun object => do
      match ← peek with
      | .mark "." =>
        mark "."
        let property ← memberName
        some <$> node .memberExpression calleeStart [object.withRole .object, property]
      | .mark "[" =>
        let inner ← index g
        some <$> node .subscriptExpression calleeStart [object, inner]
      | .mark "!" =>
        mark "!"
        some <$> node .nonNullExpression calleeStart [object]
      | _ =>
        if startsWithChar Text.backQuote (← ahead) then
          let text ← template g
          some <$> node .callExpression calleeStart
            [object.withRole .callee, text.withRole .arguments]
        else return none) base
    let types ← attempt do
      let types ← typeArguments g
      match ← peek with
      | .mark "<" => fail
      | _ => return types
    let arguments ← ifMark "(" (arguments g)
    node .newExpression start
      (callee :: types.toList ++ arguments.map (Node.withRole .arguments))

/-- The import keyword, or the data about the module itself. -/
def importExpression : Parse Node := do
  let start ← tokenStart
  word "import"
  if ← acceptMark "." then
    let _ ← wordLeaf .identifier
    node .metaProperty start []
  else node .importKeyword start []

def classExpression (g : Grammar) : Parse Node := do
  let start ← tokenStart
  let decorators ← decorators g
  classTail g start decorators fun _ => .classExpression

def wordKind : String → Kind
  | "this" => .thisKeyword
  | "super" => .superKeyword
  | "null" => .nullLiteral
  | "true" => .trueLiteral
  | "false" => .falseLiteral
  | "undefined" => .undefinedLiteral
  | _ => .identifier

/-- A name, a literal, or something in brackets. -/
def primary (g : Grammar) : Parse Node := do
  match ← peek with
  | .finish => fail
  | .number => leaf .number
  | .word text =>
    if text == "function" then function g .functionExpression .generatorFunction
    else if text == "class" then classExpression g
    else if text == "new" then creation g
    else if text == "import" then importExpression
    else if text == "async" then
      match ← peekSecond with
      | .word "function" => function g .functionExpression .generatorFunction
      | _ => leaf .identifier
    else leaf (wordKind text)
  | .mark text =>
    if text == "(" then parenthesized g
    else if text == "[" then array g
    else if text == "\x7b" then object g
    else if text == "@" then classExpression g
    else if text == "#" then privateName
    else if text == "/" || text == "/=" then regex
    else
      match ← attempt string with
      | some text => return text
      | none => template g

end Primary

end RouteTrim.Tree
