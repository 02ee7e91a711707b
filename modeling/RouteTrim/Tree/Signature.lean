import RouteTrim.Tree.Literal

/-!
# Signatures

What stands around the name of a function or class: type arguments and parameters, call arguments,
decorators, binding patterns, parameters and annotations.
-/

set_option autoImplicit false

namespace RouteTrim.Tree

namespace Signature

open Parse Literal

def typeArguments (g : Grammar) : Parse Node := do
  let start ← tokenStart
  mark "<"
  let types ← listUntil ">" g.type
  node .typeArguments start types

def typeClause (g : Grammar) : Parse Node := do
  let start ← tokenStart
  mark ":"
  let type ← g.type
  node .typeClause start [type]

/-- A node that is there if its first token is a given mark. -/
def ifMark (text : String) (p : Parse Node) : Parse (List Node) := do
  if (← peek) = .mark text then return [← p] else return []

/-- An expression behind an equals sign, if there is one. -/
def initializer (g : Grammar) : Parse (List Node) := do
  if ← acceptMark "=" then return [(← g.expression).withRole .value] else return []

/-- An expression, or three dots and the expression whose items are meant. -/
def spreadable (g : Grammar) : Parse Node := do
  let start ← tokenStart
  if ← acceptMark "..." then
    let inner ← g.expression
    node .spreadElement start [inner]
  else g.expression

/-- The arguments of a call, in parentheses. -/
def arguments (g : Grammar) : Parse Node := do
  let start ← tokenStart
  mark "("
  let items ← listUntil ")" (spreadable g)
  node .arguments start items

def dottedName (start : Nat) : Parse Node := do
  let first ← wordLeaf .identifier
  iterate (fun object => do
    if ← acceptMark "." then
      let property ← wordLeaf .propertyIdentifier
      some <$> node .memberExpression start
        [object.withRole .object, property.withRole .property]
    else return none) first

/-- A decorator: a dotted name, which may be called, or an expression in parentheses. -/
def decorator (g : Grammar) : Parse Node := do
  let start ← tokenStart
  mark "@"
  let inner ← tokenStart
  if ← acceptMark "(" then
    let expression ← g.expression
    mark ")"
    let parenthesized ← node .parenthesizedExpression inner [expression]
    node .decorator start [parenthesized]
  else
    let callee ← dottedName inner
    let call ← attempt do
      let types ← ifMark "<" (typeArguments g)
      let arguments ← arguments g
      node .callExpression inner
        (callee.withRole .callee :: types ++ [arguments.withRole .arguments])
    node .decorator start [call.getD callee]

def decorators (g : Grammar) : Parse (List Node) :=
  many do
    if (← peek) = .mark "@" then return some (← decorator g) else return none

def patternMember (g : Grammar) : Parse Node := do
  let start ← tokenStart
  if ← acceptMark "..." then
    let target ← g.pattern
    node .restPattern start [target]
  else
    let key ← propertyName g
    if ← acceptMark ":" then
      let valueStart ← tokenStart
      let target ← g.pattern
      let value ← initializer g
      let target ← if value.isEmpty then pure target
        else node .assignmentPattern valueStart (target :: value)
      node .pairPattern start [key.withRole .key, target.withRole .value]
    else
      let name ← node .shorthandPattern start []
      let value ← initializer g
      if value.isEmpty then return name else node .defaultedShorthand start (name :: value)

def patternElement (g : Grammar) : Parse Node := do
  let start ← tokenStart
  if ← acceptMark "..." then
    let target ← g.pattern
    node .restPattern start [target]
  else
    let target ← g.pattern
    let value ← initializer g
    if value.isEmpty then return target else node .assignmentPattern start (target :: value)

/-- The target of a binding: a name, or a pattern that takes an object or array apart. -/
def pattern (g : Grammar) : Parse Node := do
  let start ← tokenStart
  match ← peek with
  | .word _ => leaf .identifier
  | .mark text =>
    if text == "\x7b" then
      mark text
      let members ← listUntil "\x7d" (patternMember g)
      node .objectPattern start members
    else if text == "[" then
      mark text
      let elements ← listUntil "]" (patternElement g)
      node .arrayPattern start elements
    else fail
  | _ => fail

/-- The words that may stand in front of a parameter's name. -/
def parameterModifiers : List String :=
  ["public", "private", "protected", "readonly", "override", "static"]

/-- Reads modifiers. A word is one only if what it modifies follows. -/
def skipModifiers (modifiers : List String) (follows : Token → Bool) : Parse Unit := do
  let _ ← many do
    match ← peek with
    | .word text =>
      if modifiers.contains text && follows (← peekSecond) then
        let _ ← next
        return some ()
      else return none
    | _ => return none

def startsPattern : Token → Bool
  | .word _ => true
  | .mark text => text == "\x7b" || text == "[" || text == "..."
  | _ => false

def parameter (g : Grammar) : Parse Node := do
  let start ← tokenStart
  let decorators ← decorators g
  skipModifiers parameterModifiers startsPattern
  let _ ← acceptMark "..."
  let target ← g.pattern
  let _ ← acceptMark "?"
  let typed ← ifMark ":" (typeClause g)
  let value ← initializer g
  node .parameter start (decorators ++ target :: typed ++ value)

/-- The parameters of a function, in parentheses. -/
def formalParameters (g : Grammar) : Parse Node := do
  let start ← tokenStart
  mark "("
  let items ← listUntil ")" (parameter g)
  node .formalParameters start items

def typeParameter (g : Grammar) : Parse Node := do
  let start ← tokenStart
  skipModifiers ["const", "in", "out"] fun
    | .word text => text != "extends"
    | _ => false
  let name ← wordLeaf .typeIdentifier
  let bound ← if ← acceptWord "extends" then pure [← g.type] else pure []
  let default ← if ← acceptMark "=" then pure [← g.type] else pure []
  node .typeExpression start (name :: bound ++ default)

def typeParameters (g : Grammar) : Parse Node := do
  let start ← tokenStart
  mark "<"
  let items ← listUntil ">" (typeParameter g)
  node .typeParameters start items

/-- Type parameters, parameters and result type of a function. -/
def callSignature (g : Grammar) : Parse (List Node) := do
  let types ← ifMark "<" (typeParameters g)
  let parameters ← formalParameters g
  let result ← ifMark ":" (typeClause g)
  return types ++ parameters :: result

end Signature

end RouteTrim.Tree
