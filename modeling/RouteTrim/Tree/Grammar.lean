import RouteTrim.Tree.Cursor

/-!
# The recursive readings

TypeScript nests: an expression holds functions, functions hold statements, statements hold
expressions and types. Each reading below is written against a `Grammar`, the readings that it may
use for what is nested in it; `RouteTrim.Tree.Parse` ties the knot by giving each level of nesting
the grammar of the level below. Every reading moves on by at least one character before it uses
its grammar, so a file never nests deeper than it is long.
-/

set_option autoImplicit false

namespace RouteTrim.Tree

/-- The readings for what is nested. -/
structure Grammar where
  /-- An expression without a comma outside of brackets. -/
  expression : Parse Node
  /-- The operand of an operator in front. -/
  unary : Parse Node
  /-- A name, a literal, or something in brackets. -/
  primary : Parse Node
  /-- A primary expression with accesses and calls behind it. -/
  operand : Parse Node
  /-- A type. -/
  type : Parse Node
  /-- The target of a binding. -/
  pattern : Parse Node
  /-- A statement or declaration. -/
  statement : Parse Node

namespace Grammar

/-- The grammar below the deepest level: nothing can be read. -/
def none : Grammar :=
  ⟨Parse.fail, Parse.fail, Parse.fail, Parse.fail, Parse.fail, Parse.fail, Parse.fail⟩

open Parse

/-- Expressions between commas; more than one make a sequence. -/
def expressions (g : Grammar) : Parse Node := do
  let start ← tokenStart
  let first ← g.expression
  let more ← many do
    if ← acceptMark "," then return some (← g.expression) else return Option.none
  if more.isEmpty then return first else node .sequenceExpression start (first :: more)

end Grammar

end RouteTrim.Tree
