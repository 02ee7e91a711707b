import RouteTrim.Tree.Source
import RouteTrim.Tree.Statement

/-!
# Files as trees

The tree of a whole file. `Grammar.ofDepth n` reads what nests at most `n` levels deep; a file
nests no deeper than it is long, so its length is depth enough. Text that is no statement is
passed over token by token, so every text has a tree.
-/

set_option autoImplicit false

namespace RouteTrim.Tree

namespace Grammar

/-- The readings one level above a grammar. -/
def step (g : Grammar) : Grammar where
  expression := Expression.expression g
  unary := Expression.unary g
  primary := Primary.primary g
  operand := Access.operand g
  type := TypeExpr.type g
  pattern := Signature.pattern g
  statement := Statement.statement g

/-- The readings for what nests at most a number of levels deep. -/
def ofDepth : Nat → Grammar
  | 0 => none
  | depth + 1 => (ofDepth depth).step

end Grammar

open Parse

/-- A line at the very start of a file that names its interpreter. -/
def skipInterpreterLine : Parse Unit := do
  match ← characters with
  | '#' :: '!' :: rest => skip (2 + (rest.takeWhile fun c => !isLineEnd c).length)
  | _ => return ()

def statements (g : Grammar) : Parse (List Node) := do
  let found ← many do
    match ← attempt g.statement with
    | some statement => return some (some statement)
    | none =>
      match ← peek with
      | .finish => return none
      | _ =>
        let _ ← next
        return some none
  return found.filterMap id

/-- The tree of a file's text. -/
def parse (text : List Char) : Node :=
  let g := Grammar.ofDepth (text.length + 1)
  let nodes :=
    match (skipInterpreterLine *> statements g) (Cursor.ofText text) with
    | some (nodes, _) => nodes
    | none => []
  .mk .program .plain ⟨0, text.length⟩ nodes

/-- Source files are read with the grammar of these modules. -/
instance grammarParser : Parser where
  parse := parse

end RouteTrim.Tree
