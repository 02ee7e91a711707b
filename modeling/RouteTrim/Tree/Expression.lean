import RouteTrim.Tree.Access
import RouteTrim.Tree.Operator
import RouteTrim.Tree.Target

/-!
# Expressions

From the inside out: operators in front of operands, binary operators, conditionals, assignments
and arrow functions.

A parenthesis may open the parameters of an arrow function. They are tried first; if no arrow
follows, the same text is read as an expression in parentheses.
-/

set_option autoImplicit false

namespace RouteTrim.Tree

namespace Expression

open Parse Literal Signature Definition Access

/-! ## Operators -/

/-- An operand with an update operator behind it. -/
def updated (g : Grammar) : Parse Node := do
  let start ← tokenStart
  let target ← operand g
  match ← peek with
  | .mark text =>
    if (text == "++" || text == "--") && !(← lineEndAhead) then
      let _ ← next
      node .updateExpression start [target]
    else return target
  | _ => return target

def frontKind? : Token → Option Kind
  | .mark text =>
    if ["!", "~", "+", "-"].contains text then some .unaryExpression
    else if text == "++" || text == "--" then some .updateExpression
    else none
  | .word text =>
    if ["typeof", "void", "delete"].contains text then some .unaryExpression
    else if text == "await" then some .awaitExpression
    else none
  | _ => none

/-- An operand with the operators in front of it. -/
def unary (g : Grammar) : Parse Node := do
  let start ← tokenStart
  let token ← peek
  match frontKind? token with
  | some kind =>
    let _ ← next
    let inner ← g.unary
    node kind start [inner]
  | none =>
    if token = .mark "<" then
      let types ← typeArguments g
      let inner ← g.unary
      node .typeAssertion start [types, inner]
    else updated g

/-- A cast behind an operand: `as T`, `as const`, `satisfies T`. -/
def cast (g : Grammar) (kind : Kind) : Parse Operator.Link := do
  let _ ← next
  let constant ← if kind == .asExpression then acceptWord "const" else pure false
  let types ← if constant then pure [] else pure [← g.type]
  fun c => some (.cast kind types c.offset, c)

/-- One operator with its right operand, or one cast. -/
def link (g : Grammar) : Parse (Option Operator.Link) := do
  let operator ← Operator.ahead
  if operator == "as" || operator == "satisfies" then
    if ← lineEndAhead then return none
    some <$> cast g (if operator == "as" then .asExpression else .satisfiesExpression)
  else
    match Operator.strength? operator with
    | some strength =>
      let _ ← enter
      skip operator.length
      return some (.binary strength (← unary g))
    | none => return none

/-- Operands with binary operators between them. -/
def chain (g : Grammar) : Parse Node := do
  let first ← unary g
  let links ← many (link g)
  return Operator.tree [] first links

/-- A chain, or a choice between two expressions by it. -/
def conditional (g : Grammar) : Parse Node := do
  let start ← tokenStart
  let condition ← chain g
  if ← acceptMark "?" then
    let positive ← g.expression
    mark ":"
    let negative ← g.expression
    node .ternaryExpression start [condition, positive, negative]
  else return condition

/-! ## Arrow functions, assignments -/

def arrowBody (g : Grammar) : Parse Node := do
  mark "=>"
  if (← peek) = .mark "\x7b" then block g else g.expression

/-- An arrow function, `async` already read. -/
def arrowTail (g : Grammar) (start : Nat) : Parse Node := do
  match ← peek with
  | .word _ =>
    let name ← leaf .identifier
    let body ← arrowBody g
    node .arrowFunction start [name, body]
  | _ =>
    let signature ← callSignature g
    let body ← arrowBody g
    node .arrowFunction start (signature ++ [body])

def arrow (g : Grammar) : Parse Node := do
  let start ← tokenStart
  match ← peek with
  | .word "async" =>
    match ← attempt (word "async" *> arrowTail g start) with
    | some function => return function
    | none => arrowTail g start
  | .word _ =>
    match ← peekSecond with
    | .mark "=>" => arrowTail g start
    | _ => fail
  | .mark "(" | .mark "<" => arrowTail g start
  | _ => fail

/-- Whether nothing can follow `yield` in front of a token. -/
def endsYield : Token → Bool
  | .mark text => [")", "]", "\x7d", ",", ";", ":"].contains text
  | .finish => true
  | _ => false

/-- A value that a generator gives. -/
def yieldExpression (g : Grammar) : Parse Node := do
  let start ← tokenStart
  word "yield"
  if endsYield (← peek) || (← lineEndAhead) then node .yieldExpression start []
  else
    let _ ← acceptMark "*"
    let value ← g.expression
    node .yieldExpression start [value]

/-- A conditional expression, or an assignment to one. -/
def assignment (g : Grammar) : Parse Node := do
  let start ← tokenStart
  let left ← conditional g
  let operator ← Operator.ahead
  if operator == "=" then
    mark "="
    let right ← g.expression
    node .assignmentExpression start [(Node.toPattern left).withRole .left, right.withRole .right]
  else if Operator.augmented.contains operator then
    let _ ← enter
    skip operator.length
    let right ← g.expression
    node .augmentedAssignment start [left.withRole .left, right.withRole .right]
  else return left

/-- An expression without a comma outside of brackets. -/
def expression (g : Grammar) : Parse Node := do
  if (← peek) = .word "yield" then yieldExpression g
  else
    match ← attempt (arrow g) with
    | some function => return function
    | none => assignment g

end Expression

end RouteTrim.Tree
