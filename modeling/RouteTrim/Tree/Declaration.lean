import RouteTrim.Tree.Definition

/-!
# Declarations

Variables, classes, interfaces, type aliases, enumerations and namespaces. A class that stands as a
statement is a class declaration. A semicolon at the end of a statement is read if it is there;
without one a statement ends where its last expression can go no further.
-/

set_option autoImplicit false

namespace RouteTrim.Tree

namespace Declaration

open Parse Literal Signature Definition

def semicolon : Parse Unit := do
  let _ ← acceptMark ";"

/-- One declared variable. -/
def declarator (g : Grammar) : Parse Node := do
  let start ← tokenStart
  let target ← g.pattern
  let _ ← acceptMark "!"
  let typed ← ifMark ":" (typeClause g)
  let value ← initializer g
  node .variableDeclarator start (target :: typed ++ value)

/-- The variables behind `var`, `let` or `const`. -/
def declaredVariables (g : Grammar) : Parse Node := do
  let start ← tokenStart
  let _ ← next
  let first ← declarator g
  let more ← many do
    if ← acceptMark "," then return some (← declarator g) else return none
  node .variableDeclaration start (first :: more)

def classStatement (g : Grammar) (start : Nat) (decorators : List Node) : Parse Node := do
  let abstract ← acceptWord "abstract"
  classTail g start decorators fun named =>
    if abstract then .abstractClassDeclaration
    else if named then .classDeclaration
    else .classExpression

def interfaceDeclaration (g : Grammar) : Parse Node := do
  let start ← tokenStart
  word "interface"
  let name ← wordLeaf .typeIdentifier
  let types ← ifMark "<" (typeParameters g)
  let bases ← wordList "extends" g.type
  let body ← TypeExpr.objectType g
  node .typeDeclaration start (name :: types ++ bases ++ [body])

def typeAlias (g : Grammar) : Parse Node := do
  let start ← tokenStart
  word "type"
  let name ← wordLeaf .typeIdentifier
  let types ← ifMark "<" (typeParameters g)
  mark "="
  let type ← g.type
  semicolon
  node .typeDeclaration start (name :: types ++ [type])

/-- An enumeration. -/
def enumDeclaration (g : Grammar) : Parse Node := do
  let start ← tokenStart
  let _ ← acceptWord "const"
  word "enum"
  let name ← wordLeaf .identifier
  mark "\x7b"
  let members ← listUntil "\x7d" do
    let start ← tokenStart
    let name ← propertyName g
    let value ← initializer g
    node .statement start (name :: value)
  node .enumDeclaration start (name :: members)

/-- A namespace, a module, or an addition to the global scope. -/
def namespaceDeclaration (g : Grammar) : Parse Node := do
  let start ← tokenStart
  let _ ← next
  let name ←
    match ← peek with
    | .word _ => pure [← dottedName (← tokenStart)]
    | .mark "\x7b" => pure []
    | _ => pure [← string]
  let body ← ifMark "\x7b" (block g)
  semicolon
  node .namespaceDeclaration start (name ++ body)

/-- A declaration without a body behind `declare`. -/
def ambientDeclaration (g : Grammar) : Parse Node := do
  let start ← tokenStart
  word "declare"
  let inner ← g.statement
  node .ambientDeclaration start [inner]

end Declaration

end RouteTrim.Tree
