import RouteTrim.Tree.Cursor

/-!
# Binary operators

A chain of operands with operators between them is read flat and then made a tree by the binding
strength of the operators: a stronger one takes its operands first, equally strong ones group to
the left, powers to the right. A cast takes everything in front of it.
-/

set_option autoImplicit false

namespace RouteTrim.Tree

namespace Operator

/-- How strongly an operator binds. -/
def strength? : String → Option Nat
  | "??" => some 1
  | "||" => some 2
  | "&&" => some 3
  | "|" => some 4
  | "^" => some 5
  | "&" => some 6
  | "==" | "!=" | "===" | "!==" => some 7
  | "<" | "<=" | ">" | ">=" | "in" | "instanceof" => some 8
  | "<<" | ">>" | ">>>" => some 9
  | "+" | "-" => some 10
  | "*" | "/" | "%" => some 11
  | "**" => some 12
  | _ => none

/-- The strength of the power operator, which groups to the right. -/
def powerStrength : Nat := 12

/-- The longest mark of angle brackets and an equals sign at the front of a text. -/
def angleMark : List Char → String
  | '>' :: '>' :: '>' :: '=' :: _ => ">>>="
  | '>' :: '>' :: '>' :: _ => ">>>"
  | '>' :: '>' :: '=' :: _ => ">>="
  | '>' :: '>' :: _ => ">>"
  | '>' :: '=' :: _ => ">="
  | _ => ">"

/-- The text of an operator that may stand in front of the cursor. -/
def ahead : Parse String := do
  match ← Parse.peek with
  | .mark ">" => return angleMark (← Parse.ahead)
  | .mark text => return text
  | .word text => return text
  | _ => return ""

/-- The assignments that combine the old value with the new one. -/
def augmented : List String :=
  ["+=", "-=", "*=", "/=", "%=", "**=", "<<=", ">>=", ">>>=", "&=", "|=", "^=", "&&=", "||=",
   "??="]

/-- What follows the first operand of a chain. -/
inductive Link where
  /-- An operator of a strength and its right operand. -/
  | binary (strength : Nat) (operand : Node)
  /-- A cast of everything before it: its kind, its type, and where it ends. -/
  | cast (kind : Kind) (types : List Node) (stop : Nat)

/-- Two operands with an operator between them. -/
def binary (left right : Node) : Node :=
  let start := left.span.start
  .mk .binaryExpression .plain ⟨start, right.span.stop - start⟩
    [left.withRole .left, right.withRole .right]

/-- Gives the pending operations that bind more strongly than what follows their right operand. -/
def reduce (binds : Nat → Bool) : List (Node × Nat) → Node → List (Node × Nat) × Node
  | [], operand => ([], operand)
  | (left, strength) :: pending, operand =>
    if binds strength then reduce binds pending (binary left operand)
    else ((left, strength) :: pending, operand)

/-- The tree of a chain. `pending` holds the left operands that still wait for a right one. -/
def tree (pending : List (Node × Nat)) (operand : Node) : List Link → Node
  | [] => (reduce (fun _ => true) pending operand).2
  | .binary strength next :: links =>
    let (pending, left) := reduce
      (fun s => strength < s || (s == strength && s != powerStrength)) pending operand
    tree ((left, strength) :: pending) next links
  | .cast kind types stop :: links =>
    let (_, left) := reduce (fun _ => true) pending operand
    let start := left.span.start
    tree [] (.mk kind .plain ⟨start, stop - start⟩ (left :: types)) links

end Operator

end RouteTrim.Tree
