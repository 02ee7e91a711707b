import RouteTrim.Tree.Declaration
import RouteTrim.Tree.Primary

/-!
# Imports and exports

The statements that join files. The decorators of a class may stand in front of `export`, and then
they belong to the export statement. A class without a name behind `export default` is an
expression.
-/

set_option autoImplicit false

namespace RouteTrim.Tree

namespace ImportExport

open Parse Literal Signature Definition Declaration

/-- Whether the next token opens a string. -/
def stringAhead : Parse Bool := do
  let rest ← ahead
  return startsWithChar Text.singleQuote rest || startsWithChar Text.doubleQuote rest

/-- The module that an import or export names, with its attributes. -/
def moduleSource (g : Grammar) : Parse (List Node) := do
  let source ← string
  let attributes ←
    match ← peek with
    | .word text =>
      if (text == "with" || text == "assert") && !(← lineEndAhead) then
        let _ ← next
        pure [← Primary.object g]
      else pure []
    | _ => pure []
  return source :: attributes

/-- An import of a name for another one, or for a module asked for by a call. -/
def importAlias : Parse (List Node) := do
  if (← peek) = .word "type" && (← peekSecond) != .mark "=" then word "type"
  let name ← wordLeaf .identifier
  mark "="
  let target ← dottedName (← tokenStart)
  if ← acceptMark "(" then
    let source ← string
    mark ")"
    return [name, target, source]
  else return [name, target]

def importStatement (g : Grammar) : Parse Node := do
  let start ← tokenStart
  word "import"
  let children ←
    match ← attempt importAlias with
    | some nodes => pure nodes
    | none =>
      let _ ← many do
        if ← stringAhead then return none
        match ← next with
        | .finish => fail
        | _ => return some ()
      moduleSource g
  semicolon
  node .importStatement start children

def exportClause (g : Grammar) : Parse (List Node) := do
  let _ ← acceptWord "type"
  if ← acceptMark "*" then
    if ← acceptWord "as" then
      if ← stringAhead then
        let _ ← string
      else
        let _ ← next
    word "from"
    moduleSource g
  else
    mark "\x7b"
    let _ ← many do
      match ← peek with
      | .mark "\x7d" => return none
      | .finish => return none
      | _ =>
        if ← stringAhead then
          let _ ← string
        else
          let _ ← next
        return some ()
    mark "\x7d"
    if ← acceptWord "from" then moduleSource g else return []

def exportDefault (g : Grammar) : Parse Node := do
  let start ← tokenStart
  match ← peek with
  | .word "class" => classStatement g start []
  | .mark "@" => classStatement g start (← decorators g)
  | .word "function" => function g .functionDeclaration .functionDeclaration
  | .word text =>
    match text, ← peekSecond with
    | "abstract", .word "class" => classStatement g start []
    | "async", .word "function" => function g .functionDeclaration .functionDeclaration
    | "interface", .word _ => interfaceDeclaration g
    | _, _ => g.expression
  | _ => g.expression

def exportStatement (g : Grammar) (start : Nat) (decorators : List Node) : Parse Node := do
  word "export"
  let children ←
    match ← peek with
    | .word "default" =>
      let _ ← next
      pure [← exportDefault g]
    | .mark "=" =>
      let _ ← next
      pure [← g.expressions]
    | .mark "*" | .mark "\x7b" => exportClause g
    | .mark "@" =>
      let inner ← tokenStart
      pure [← classStatement g inner (← Signature.decorators g)]
    | .word text =>
      match text, ← peekSecond with
      | "as", .word "namespace" =>
        let _ ← next
        let _ ← next
        let name ← wordLeaf .identifier
        pure [name]
      | "type", .mark "\x7b" | "type", .mark "*" => exportClause g
      | "class", _ => pure [← classStatement g (← tokenStart) []]
      | "abstract", .word "class" => pure [← classStatement g (← tokenStart) []]
      | _, _ => pure [← g.statement]
    | _ => pure [← g.statement]
  semicolon
  node .exportStatement start (decorators ++ children)

/-- What stands behind decorators: an export or a class. -/
def decorated (g : Grammar) : Parse Node := do
  let start ← tokenStart
  let decorators ← decorators g
  if (← peek) = .word "export" then exportStatement g start decorators
  else classStatement g start decorators

end ImportExport

end RouteTrim.Tree
