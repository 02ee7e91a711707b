import RouteTrim.Tree.ControlFlow
import RouteTrim.Tree.Expression
import RouteTrim.Tree.ImportExport

/-!
# Statements

What a file and a block consist of. The first word of a statement decides what it is, unless that
word may be a name too; then the word behind it decides.
-/

set_option autoImplicit false

namespace RouteTrim.Tree

namespace Statement

open Parse Literal Signature Definition Declaration ImportExport ControlFlow

def expressionStatement (g : Grammar) : Parse Node := do
  let start ← tokenStart
  let inner ← g.expressions
  semicolon
  node .expressionStatement start [inner]

/-- A function with a name; a declaration of its type ends in a semicolon. -/
def functionStatement (g : Grammar) : Parse Node := do
  let declaration ← function g .functionDeclaration .functionDeclaration
  semicolon
  return declaration

def variableStatement (g : Grammar) : Parse Node := do
  let declaration ← declaredVariables g
  semicolon
  return declaration

def wordStatement (g : Grammar) (text : String) : Parse Node := do
  let start ← tokenStart
  let second ← peekSecond
  let sameLine := !(← lineEndAfterToken)
  if controlWords.contains text then control g text
  else
    match text, second with
    | "export", _ => exportStatement g start []
    | "import", .mark "(" | "import", .mark "." => expressionStatement g
    | "import", _ => importStatement g
    | "const", .word "enum" => enumDeclaration g
    | "var", _ | "const", _ => variableStatement g
    | "let", .word _ | "let", .mark "\x7b" | "let", .mark "[" => variableStatement g
    | "function", _ => functionStatement g
    | "class", _ => classStatement g start []
    | "async", .word "function" =>
      if sameLine then functionStatement g else expressionStatement g
    | "abstract", .word "class" => classStatement g start []
    | "interface", .word _ => interfaceDeclaration g
    | "type", .word _ => if sameLine then typeAlias g else expressionStatement g
    | "enum", .word _ => enumDeclaration g
    | "declare", .word _ => if sameLine then ambientDeclaration g else expressionStatement g
    | "global", .mark "\x7b" => namespaceDeclaration g
    | "namespace", .word _ | "module", .word _ =>
      if sameLine then namespaceDeclaration g else expressionStatement g
    | "module", .mark _ =>
      if (← isAhead (do let _ ← next; if !(← stringAhead) then fail)) && sameLine then
        namespaceDeclaration g
      else expressionStatement g
    | _, .mark ":" =>
      let _ ← next
      mark ":"
      let body ← g.statement
      node .statement start [body]
    | _, _ => expressionStatement g

/-- A statement or declaration. -/
def statement (g : Grammar) : Parse Node := do
  match ← peek with
  | .word text => wordStatement g text
  | .mark text =>
    if text == "\x7b" then block g
    else if text == ";" then leaf .statement
    else if text == "@" then decorated g
    else expressionStatement g
  | .number => expressionStatement g
  | .finish => fail

end Statement

end RouteTrim.Tree
