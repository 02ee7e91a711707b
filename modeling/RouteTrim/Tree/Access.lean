import RouteTrim.Tree.Primary

/-!
# Accesses and calls

What stands behind a primary expression: members, indices, calls, tagged templates. A `<` may open
type arguments there; it is an operator unless a call or no operand at all follows them.
-/

set_option autoImplicit false

namespace RouteTrim.Tree

namespace Access

open Parse Literal Signature Primary

/-- Whether no operand starts with a token, so that a `>` in front of it closes type arguments and
compares nothing. -/
def endsInstantiation : Token → Bool
  | .mark text =>
    [")", "]", "\x7d", ",", ";", ":", ".", "?.", "?", "==", "!=", "===", "!==",
      "&&", "||", "??", "|", "&", "^", "%", "*", "**"].contains text
  | .word text =>
    ["in", "instanceof", "const", "var", "if", "else", "for", "while", "do", "switch", "case",
      "default", "return", "throw", "try", "catch", "finally", "break", "continue", "export",
      "debugger", "with", "enum"].contains text
  | .finish => true
  | _ => false

/-- Type arguments behind an expression, with the call that they belong to. -/
def typedCall (g : Grammar) (start : Nat) (callee : Node) : Parse Node := do
  let types ← typeArguments g
  match ← peek with
  | .mark "(" =>
    let arguments ← arguments g
    node .callExpression start
      [callee.withRole .callee, types, arguments.withRole .arguments]
  | token =>
    if endsInstantiation token then node .instantiationExpression start [callee, types]
    else if startsWithChar Text.backQuote (← ahead) then
      let text ← template g
      node .callExpression start [callee.withRole .callee, types, text.withRole .arguments]
    else fail

/-- What stands behind `?.`. -/
def chained (g : Grammar) (start : Nat) (object : Node) : Parse Node := do
  let chain ← leaf .optionalChain
  match ← peek with
  | .mark "(" =>
    let arguments ← arguments g
    node .callExpression start [object.withRole .callee, arguments.withRole .arguments]
  | .mark "<" =>
    let types ← typeArguments g
    let arguments ← arguments g
    node .callExpression start
      [object.withRole .callee, types, arguments.withRole .arguments]
  | .mark "[" =>
    let inner ← index g
    node .subscriptExpression start [object.withRole .object, chain, inner]
  | _ =>
    let property ← memberName
    node .memberExpression start [object.withRole .object, chain, property]

def accessStep (g : Grammar) (start : Nat) (object : Node) : Parse (Option Node) := do
  match ← peek with
  | .mark text =>
    if text == "." then
      mark "."
      let property ← memberName
      some <$> node .memberExpression start [object.withRole .object, property]
    else if text == "?." then some <$> chained g start object
    else if text == "(" then
      let arguments ← arguments g
      some <$> node .callExpression start
        [object.withRole .callee, arguments.withRole .arguments]
    else if text == "[" then
      let inner ← index g
      some <$> node .subscriptExpression start [object.withRole .object, inner]
    else if text == "!" then
      if ← lineEndAhead then return none
      mark "!"
      some <$> node .nonNullExpression start [object]
    else if text == "<" then attempt (typedCall g start object)
    else if startsWithChar Text.backQuote (← ahead) then
      let text ← template g
      some <$> node .callExpression start
        [object.withRole .callee, text.withRole .arguments]
    else return none
  | _ => return none

/-- A primary expression with accesses and calls behind it. -/
def operand (g : Grammar) : Parse Node := do
  let start ← tokenStart
  let base ← primary g
  iterate (accessStep g start) base

end Access

end RouteTrim.Tree
