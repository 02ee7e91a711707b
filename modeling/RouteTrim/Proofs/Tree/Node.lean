import RouteTrim.Tree.Node

/-!
# Nodes in another part, and the order of a walk

A node that is given another part keeps everything else.

The walk keeps a stack of pending visits; `preorder` goes down the tree by recursion. The stack is
the forest that is still to be walked, so the walk of a stack is the walk of its trees one by one.
-/

set_option autoImplicit false

namespace RouteTrim.Tree.Node

/-! ## Parts -/

theorem kind_withRole (role : Role) (node : Node) : (node.withRole role).kind = node.kind := by
  cases node; rfl

theorem children_withRole (role : Role) (node : Node) :
    (node.withRole role).children = node.children := by
  cases node; rfl

@[simp] theorem role_withRole (role : Role) (node : Node) : (node.withRole role).role = role := by
  cases node; rfl

theorem span_withRole (role : Role) (node : Node) : (node.withRole role).span = node.span := by
  cases node; rfl

/-! ## Walks -/

theorem preorder_eq (node : Node) : preorder node = node :: preorders node.children := by
  cases node; rw [preorder, children]

theorem preorders_append (xs ys : List Node) :
    preorders (xs ++ ys) = preorders xs ++ preorders ys := by
  induction xs with
  | nil => rfl
  | cons x xs ih => simp only [List.cons_append, preorders, ih, List.append_assoc]

theorem nodesOf_visitAll (stack : List Visit) :
    nodesOf (visitAll stack) = preorders (nodesOf stack) := by
  induction stack using visitAll.induct with
  | case1 => rw [visitAll]; rfl
  | case2 visit stack ih =>
    have pending : nodesOf (visit.node.childVisits ++ stack)
        = visit.node.children ++ nodesOf stack := by
      rw [← nodesOf_childVisits, nodesOf, nodesOf, nodesOf, List.map_append]
    rw [pending, preorders_append] at ih
    rw [visitAll]
    show visit.node :: nodesOf _ = preorder visit.node ++ preorders (nodesOf stack)
    rw [ih, preorder_eq, List.cons_append]

theorem walk_eq (node : Node) : node.walk = preorder node := by
  have h := nodesOf_visitAll [⟨none, node⟩]
  rw [walk, visits]
  refine h.trans ?_
  show preorder node ++ preorders [] = preorder node
  rw [preorders, List.append_nil]

/-- The calls on a stack are those of its trees, one tree after the other. -/
theorem callsOn_eq (stack : List Node) :
    callsOn stack = (preorders stack).filter (·.kind == .callExpression) := by
  induction stack using callsOn.induct with
  | case1 => rw [callsOn]; rfl
  | case2 node stack _ ih | case3 node stack _ ih =>
    rw [preorders_append] at ih
    rw [callsOn, ih, preorders, preorder_eq, List.cons_append, List.filter_cons]

theorem calls_eq (node : Node) : node.calls = node.walkKinds (· == .callExpression) := by
  rw [calls, callsOn_eq, preorders, preorders, List.append_nil, walkKinds, walk_eq]

end RouteTrim.Tree.Node
