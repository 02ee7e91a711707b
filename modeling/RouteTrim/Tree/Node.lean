import RouteTrim.Tree.Kind

/-!
# Nodes

The tree of a file: each node has a kind, the part it plays in its parent, the span of text that it
covers and its children in source order. Comments and punctuation are not in the tree.

Spans count characters. A span is a start and a length, so every span cuts a text into three
pieces that give the text back.

`walk` visits a tree from a stack of pending nodes, each with its parent; `calls` keeps the calls of
a tree on a stack without parents. `preorder` is the same order told by recursion.
-/

set_option autoImplicit false

namespace RouteTrim.Tree

/-- A part of a text: `length` characters from `start` on. -/
structure Span where
  start : Nat
  length : Nat
  deriving DecidableEq, Repr, Inhabited

namespace Span

/-- Where the part ends. -/
def stop (span : Span) : Nat :=
  span.start + span.length

/-- The part of a text that the span covers. -/
def slice (span : Span) (text : List Char) : List Char :=
  (text.drop span.start).take span.length

def replace (span : Span) (text replacement : List Char) : List Char :=
  text.take span.start ++ replacement ++ text.drop span.stop

def behind (span : Span) : Span :=
  ⟨span.stop, 0⟩

/-- The three pieces give the text back. -/
theorem take_slice_drop (span : Span) (text : List Char) :
    text.take span.start ++ span.slice text ++ text.drop span.stop = text := by
  rw [slice, stop, ← List.drop_drop, List.append_assoc, List.take_append_drop,
    List.take_append_drop]

end Span

/-- The part that a node plays in its parent. -/
inductive Role where
  | plain
  | name
  | object
  | property
  | callee
  | arguments
  | key
  | value
  | left
  | right
  deriving DecidableEq, Repr, Inhabited

/-- A node of a tree. -/
inductive Node where
  | mk (kind : Kind) (role : Role) (span : Span) (children : List Node)
  deriving Repr, Inhabited

namespace Node

/-- What the node is. -/
def kind : Node → Kind
  | mk kind _ _ _ => kind

/-- The part the node plays in its parent. -/
def role : Node → Role
  | mk _ role _ _ => role

/-- The text that the node covers. -/
def span : Node → Span
  | mk _ _ span _ => span

/-- The nodes below, in source order. -/
def children : Node → List Node
  | mk _ _ _ children => children

/-- The node in another part. -/
def withRole (role : Role) : Node → Node
  | mk kind _ span children => mk kind role span children

/-- The first child that plays a part. -/
def child? (node : Node) (role : Role) : Option Node :=
  node.children.find? fun child => child.role == role

/-- A node on its way, with the node it stands in. -/
structure Visit where
  parent : Option Node
  node : Node

def childVisits (node : Node) : List Visit :=
  node.children.map fun child => ⟨some node, child⟩

mutual

/-- The number of nodes in a tree. -/
def size : Node → Nat
  | mk _ _ _ children => 1 + sizes children

/-- The number of nodes in a list of trees. -/
def sizes : List Node → Nat
  | [] => 0
  | node :: nodes => size node + sizes nodes

end

theorem size_eq (node : Node) : node.size = 1 + sizes node.children := by
  cases node; rw [size, children]

theorem sizes_append (xs ys : List Node) : sizes (xs ++ ys) = sizes xs + sizes ys := by
  induction xs with
  | nil => simp [sizes]
  | cons x xs ih => simp [sizes, ih, Nat.add_assoc]

def nodesOf (stack : List Visit) : List Node :=
  stack.map Visit.node

theorem nodesOf_childVisits (node : Node) : nodesOf node.childVisits = node.children := by
  simp [nodesOf, childVisits, Function.comp_def]

/-- Visits the top of the stack and puts its children in its place, until the stack is empty. -/
def visitAll : List Visit → List Visit
  | [] => []
  | visit :: stack => visit :: visitAll (visit.node.childVisits ++ stack)
termination_by stack => sizes (nodesOf stack)
decreasing_by
  have h : nodesOf (visit.node.childVisits ++ stack) = visit.node.children ++ nodesOf stack := by
    rw [← nodesOf_childVisits]; simp [nodesOf]
  rw [h, sizes_append]
  simp only [nodesOf, List.map_cons, sizes, size_eq visit.node]
  omega

/-- Every node of the tree with its parent, outermost first and in source order. -/
def visits (node : Node) : List Visit :=
  visitAll [⟨none, node⟩]

/-- Every node of the tree, outermost first and in source order. -/
def walk (node : Node) : List Node :=
  node.visits.map Visit.node

/-- The nodes of the tree with a wanted kind, in the order of `walk`. -/
def walkKinds (node : Node) (wanted : Kind → Bool) : List Node :=
  node.walk.filter fun n => wanted n.kind

/-- Takes the top off a stack of trees and puts its children in its place, until the stack is empty.
The calls on the way are kept. -/
def callsOn : List Node → List Node
  | [] => []
  | node :: stack =>
    let calls := callsOn (node.children ++ stack)
    if node.kind == .callExpression then node :: calls else calls
termination_by stack => sizes stack
decreasing_by
  rw [sizes_append, sizes, size_eq node]
  omega

/-- The calls in the tree, found on a walk of their own. -/
def calls (node : Node) : List Node :=
  callsOn [node]

mutual

/-- The order of visits told by recursion: the node, then its children's trees one by one. -/
def preorder : Node → List Node
  | mk kind role span children => mk kind role span children :: preorders children

/-- The trees of a list one by one. -/
def preorders : List Node → List Node
  | [] => []
  | node :: nodes => preorder node ++ preorders nodes

end

end Node

end RouteTrim.Tree
