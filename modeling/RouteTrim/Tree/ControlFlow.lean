import RouteTrim.Tree.Access
import RouteTrim.Tree.Declaration
import RouteTrim.Tree.Target

/-!
# Control flow

Conditions, loops, choices, jumps and handlers.
-/

set_option autoImplicit false

namespace RouteTrim.Tree

namespace ControlFlow

open Parse Literal Signature Definition Declaration

/-- An expression in parentheses, as behind `if` and `while`. -/
def condition (g : Grammar) : Parse Node := do
  mark "("
  let inner ← g.expressions
  mark ")"
  return inner

/-- Whether a statement goes on with an expression on the same line. -/
def continuesOnLine : Parse Bool := do
  if ← lineEndAhead then return false
  match ← peek with
  | .mark text => return text != ";" && text != "\x7d"
  | .finish => return false
  | _ => return true

/-- What a loop runs over or counts with, between the parentheses behind `for`. -/
def loopHead (g : Grammar) : Parse (List Node) := do
  let walked ← attempt do
    let target ←
      match ← peek with
      | .word text =>
        if ["var", "let", "const"].contains text then
          match ← attempt (next *> g.pattern) with
          | some target => pure target
          | none => Access.operand g
        else Access.operand g
      | _ => Access.operand g
    let _ ← ifMark ":" (typeClause g)
    if !(← acceptWord "of") then word "in"
    let values ← g.expressions
    return [Node.toPattern target, values]
  match walked with
  | some nodes => return nodes
  | none =>
    let part : Parse (List Node) := do
      match ← peek with
      | .mark ";" | .mark ")" => return []
      | _ => return [← g.expressions]
    let first ←
      match ← peek with
      | .word text =>
        if ["var", "let", "const"].contains text then pure [← declaredVariables g] else part
      | _ => part
    mark ";"
    let test ← part
    mark ";"
    let step ← part
    return first ++ test ++ step

/-- A loop with `for`. -/
def forStatement (g : Grammar) : Parse Node := do
  let start ← tokenStart
  word "for"
  let _ ← acceptWord "await"
  mark "("
  let head ← loopHead g
  mark ")"
  let body ← g.statement
  node .statement start (head ++ [body])

def cases (g : Grammar) : Parse (List Node) := do
  mark "\x7b"
  let parts ← many do
    match ← peek with
    | .mark "\x7d" => return none
    | .finish => return none
    | .word "case" =>
      let _ ← next
      let value ← g.expressions
      mark ":"
      return some [value]
    | .word "default" =>
      let _ ← next
      mark ":"
      return some []
    | _ => return some [← g.statement]
  mark "\x7d"
  return parts.flatten

/-- A block with its handlers. -/
def tryStatement (g : Grammar) : Parse Node := do
  let start ← tokenStart
  word "try"
  let body ← block g
  let handler ←
    if ← acceptWord "catch" then
      let binding ← ifMark "(" do
        mark "("
        let target ← g.pattern
        let _ ← ifMark ":" (typeClause g)
        mark ")"
        return target
      pure (binding ++ [← block g])
    else pure []
  let final ← if ← acceptWord "finally" then pure [← block g] else pure []
  node .statement start (body :: handler ++ final)

/-- A statement that starts with a word of control flow. -/
def control (g : Grammar) (text : String) : Parse Node := do
  let start ← tokenStart
  match text with
  | "if" =>
    let _ ← next
    let test ← condition g
    let positive ← g.statement
    let negative ← if ← acceptWord "else" then pure [← g.statement] else pure []
    node .statement start (test :: positive :: negative)
  | "for" => forStatement g
  | "while" | "with" =>
    let _ ← next
    let test ← condition g
    let body ← g.statement
    node .statement start [test, body]
  | "do" =>
    let _ ← next
    let body ← g.statement
    word "while"
    let test ← condition g
    semicolon
    node .statement start [body, test]
  | "switch" =>
    let _ ← next
    let value ← condition g
    let parts ← cases g
    node .statement start (value :: parts)
  | "try" => tryStatement g
  | "return" | "throw" =>
    let _ ← next
    let value ← if ← continuesOnLine then pure [← g.expressions] else pure []
    semicolon
    node .statement start value
  | "break" | "continue" =>
    let _ ← next
    if ← continuesOnLine then
      let _ ← next
    semicolon
    node .statement start []
  | "debugger" =>
    let _ ← next
    semicolon
    node .statement start []
  | _ => fail

def controlWords : List String :=
  ["if", "for", "while", "with", "do", "switch", "try", "return", "throw", "break", "continue",
   "debugger"]

end ControlFlow

end RouteTrim.Tree
