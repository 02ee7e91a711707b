import RouteTrim.Tree.Node

/-!
# Targets of assignments

The left side of an assignment is read as an expression. Once the equals sign is seen, its objects
and arrays turn out to be patterns.
-/

set_option autoImplicit false

namespace RouteTrim.Tree

mutual

/-- An object or array that is assigned to is a pattern, and so are the objects and arrays in it;
what stands behind an equals sign in it stays an expression. -/
def Node.toPattern : Node → Node
  | .mk kind role span children =>
    match kind with
    | .object => .mk .objectPattern role span (Node.toPatterns children)
    | .array => .mk .arrayPattern role span (Node.toPatterns children)
    | .pair => .mk .pairPattern role span (Node.toPatterns children)
    | .spreadElement => .mk .restPattern role span (Node.toPatterns children)
    | .shorthandProperty => .mk .shorthandPattern role span children
    | .assignmentExpression => .mk .assignmentPattern role span (Node.toPatterns children)
    | _ => .mk kind role span children

def Node.toPatterns : List Node → List Node
  | [] => []
  | node :: nodes =>
    (if node.role == .right then node else Node.toPattern node) :: Node.toPatterns nodes

end

end RouteTrim.Tree
