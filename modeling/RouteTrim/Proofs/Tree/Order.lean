import RouteTrim.Proofs.Tree.Place
import RouteTrim.Tree.Parse

/-!
# The order of a walk

A walk takes nodes off a stack and puts their children in their place. What comes of it is told here
by where the nodes stand. A position says which child to go to, level by level, and a tree is walked
in the order of its positions as words: a node in front of all that is below it, and what is below
one child in front of what is below the next (`map_at?_positions`, `sorted_positions`). Two nodes
may be the same, but not their positions, so every node is visited once.

Where the nodes of a tree lie in the text as they stand in each other, this is the order of the
text, outermost first (`IsLaidOut.precedes`).
-/

set_option autoImplicit false

namespace RouteTrim.Tree.Node

/-! ## Positions -/

/-- Where a node stands in a tree: which child to go to, level by level. -/
abbrev Position := List Nat

/-- The node at a position, if the tree has one there. -/
def at? : Node → Position → Option Node
  | node, [] => some node
  | node, i :: rest =>
    match node.children[i]? with
    | some child => child.at? rest
    | none => none

mutual

/-- The positions of a tree's nodes: its own, and then those in each child. -/
def positions : Node → List Position
  | mk _ _ _ children => [] :: positionsFrom 0 children

/-- The positions in some children of a node, which are counted from `first` on. -/
def positionsFrom : Nat → List Node → List Position
  | _, [] => []
  | first, node :: nodes =>
    (positions node).map (first :: ·) ++ positionsFrom (first + 1) nodes

end

theorem positions_eq (node : Node) : node.positions = [] :: positionsFrom 0 node.children := by
  cases node; rw [positions, children]

theorem mem_positionsFrom {first : Nat} {nodes : List Node} {place : Position} :
    place ∈ positionsFrom first nodes ↔ ∃ i node rest,
      nodes[i]? = some node ∧ rest ∈ node.positions ∧ place = (first + i) :: rest := by
  induction nodes generalizing first with
  | nil => simp [positionsFrom]
  | cons node nodes ih =>
    rw [positionsFrom, List.mem_append, List.mem_map, ih]
    constructor
    · rintro (⟨rest, hrest, rfl⟩ | ⟨i, other, rest, hother, hrest, rfl⟩)
      · exact ⟨0, node, rest, rfl, hrest, rfl⟩
      · exact ⟨i + 1, other, rest, hother, hrest, by rw [Nat.add_assoc, Nat.add_comm 1]⟩
    · rintro ⟨i, other, rest, hother, hrest, rfl⟩
      cases i with
      | zero =>
        obtain rfl := Option.some.inj hother
        exact .inl ⟨rest, hrest, rfl⟩
      | succ i => exact .inr ⟨i, other, rest, hother, hrest, by rw [Nat.add_assoc, Nat.add_comm 1]⟩

theorem mem_positions {node : Node} {place : Position} :
    place ∈ node.positions ↔ ∃ found, node.at? place = some found := by
  induction place generalizing node with
  | nil => simp [positions_eq, at?]
  | cons i rest ih =>
    rw [positions_eq, List.mem_cons, mem_positionsFrom]
    constructor
    · rintro (impossible | ⟨j, child, below, hchild, hbelow, same⟩)
      · exact absurd impossible (by simp)
      · obtain ⟨rfl, rfl⟩ := List.cons.inj same
        rw [Nat.zero_add, at?, hchild]
        exact ih.1 hbelow
    · rintro ⟨found, hfound⟩
      rw [at?] at hfound
      split at hfound
      · next child hchild =>
        exact .inr ⟨i, child, rest, hchild, ih.2 ⟨found, hfound⟩, by rw [Nat.zero_add]⟩
      · exact absurd hfound (by simp)

theorem sorted_positionsFrom {first : Nat} {nodes : List Node}
    (h : ∀ node ∈ nodes, node.positions.Pairwise (· < ·)) :
    (positionsFrom first nodes).Pairwise (· < ·) := by
  induction nodes generalizing first with
  | nil => exact .nil
  | cons node nodes ih =>
    obtain ⟨hnode, hnodes⟩ := List.forall_mem_cons.1 h
    rw [positionsFrom, List.pairwise_append, List.pairwise_map]
    refine ⟨hnode.imp fun below => List.cons_lt_cons_iff.2 (.inr ⟨rfl, below⟩), ih hnodes, ?_⟩
    intro place hplace other hother
    obtain ⟨rest, -, rfl⟩ := List.mem_map.1 hplace
    obtain ⟨i, -, below, -, -, rfl⟩ := mem_positionsFrom.1 hother
    exact List.cons_lt_cons_iff.2 (.inl (by omega))

/-- **The positions are listed in their order as words.** -/
theorem sorted_positions (node : Node) : node.positions.Pairwise (· < ·) := by
  induction node using induction with
  | step node ih =>
    rw [positions_eq, List.pairwise_cons]
    refine ⟨fun place hplace => ?_, sorted_positionsFrom ih⟩
    obtain ⟨i, -, rest, -, -, rfl⟩ := mem_positionsFrom.1 hplace
    exact List.nil_lt_cons ..

theorem map_positionsFrom (first : Nat) {nodes : List Node} {look : Position → Option Node}
    (h : ∀ node ∈ nodes, node.positions.map node.at? = node.preorder.map some)
    (agree : ∀ i node, nodes[i]? = some node →
      ∀ rest, look ((first + i) :: rest) = node.at? rest) :
    (positionsFrom first nodes).map look = (preorders nodes).map some := by
  induction nodes generalizing first with
  | nil => rfl
  | cons node nodes ih =>
    obtain ⟨hnode, hnodes⟩ := List.forall_mem_cons.1 h
    have inNode : (node.positions.map (first :: ·)).map look = node.preorder.map some := by
      rw [← hnode, List.map_map]
      exact List.map_congr_left fun rest _ => agree 0 node rfl rest
    have inOthers := ih (first + 1) hnodes fun i other hother rest => by
      rw [Nat.add_assoc, Nat.add_comm 1]
      exact agree (i + 1) other hother rest
    rw [positionsFrom, List.map_append, inNode, inOthers, preorders, List.map_append]

/-- **At the positions in their order stand the nodes in the order of the walk.** -/
theorem map_at?_positions (node : Node) :
    node.positions.map node.at? = node.preorder.map some := by
  induction node using induction with
  | step node ih =>
    rw [positions_eq, preorder_eq, List.map_cons, List.map_cons, at?]
    refine congrArg _ (map_positionsFrom 0 ih fun i child hchild rest => ?_)
    rw [Nat.zero_add, at?, hchild]

/-! ## Places in a text -/

/-- Whether a node stands around another one, or in front of it. -/
def Precedes (node other : Node) : Prop :=
  (node.span.start ≤ other.span.start ∧ other.span.stop ≤ node.span.stop) ∨
    node.span.stop ≤ other.span.start

/-- Whether the nodes of a tree lie in the text as they stand in each other: children in their
parent, one behind the other. -/
def IsLaidOut (tree : Node) : Prop :=
  ∀ node ∈ tree.preorder,
    (node.children.Pairwise fun child next => child.span.stop ≤ next.span.start) ∧
      ∀ child ∈ node.children,
        node.span.start ≤ child.span.start ∧ child.span.stop ≤ node.span.stop

instance (tree : Node) : Decidable tree.IsLaidOut :=
  inferInstanceAs (Decidable (∀ _ ∈ _, _))

section

variable {tree : Node}

theorem IsLaidOut.child (h : tree.IsLaidOut) {child : Node} (hchild : child ∈ tree.children) :
    child.IsLaidOut :=
  fun node hnode => h node (mem_preorder_of_child hchild hnode)

theorem IsLaidOut.around (h : tree.IsLaidOut) : ∀ node ∈ tree.preorder,
    tree.span.start ≤ node.span.start ∧ node.span.stop ≤ tree.span.stop := by
  induction tree using induction with
  | step tree ih =>
    intro node hnode
    rcases mem_preorder.1 hnode with rfl | ⟨child, hchild, hnode⟩
    · exact ⟨Nat.le_refl _, Nat.le_refl _⟩
    · have inChild := ih child hchild (h.child hchild) node hnode
      have inTree := (h tree (mem_preorder_self tree)).2 child hchild
      exact ⟨Nat.le_trans inTree.1 inChild.1, Nat.le_trans inChild.2 inTree.2⟩

theorem precedes_preorders {nodes : List Node} (laidOut : ∀ node ∈ nodes, node.IsLaidOut)
    (inOrder : nodes.Pairwise fun node next => node.span.stop ≤ next.span.start)
    (h : ∀ node ∈ nodes, node.preorder.Pairwise Precedes) :
    (preorders nodes).Pairwise Precedes := by
  induction nodes with
  | nil => exact .nil
  | cons node nodes ih =>
    obtain ⟨hnode, hnodes⟩ := List.forall_mem_cons.1 h
    obtain ⟨outNode, outNodes⟩ := List.forall_mem_cons.1 laidOut
    obtain ⟨behind, inOrder⟩ := List.pairwise_cons.1 inOrder
    rw [preorders, List.pairwise_append]
    refine ⟨hnode, ih outNodes inOrder hnodes, fun inner hinner other hother => .inr ?_⟩
    obtain ⟨next, hnext, hother⟩ := mem_preorders.1 hother
    calc inner.span.stop
      _ ≤ node.span.stop := (outNode.around inner hinner).2
      _ ≤ next.span.start := behind next hnext
      _ ≤ other.span.start := ((outNodes next hnext).around other hother).1

/-- **A walk goes along the text, outermost first.** -/
theorem IsLaidOut.precedes (h : tree.IsLaidOut) : tree.preorder.Pairwise Precedes := by
  induction tree using induction with
  | step tree ih =>
    have around := h.around
    rw [preorder_eq, List.forall_mem_cons] at around
    rw [preorder_eq, List.pairwise_cons]
    exact ⟨fun node hnode => .inl (around.2 node hnode),
      precedes_preorders (fun child hchild => h.child hchild) (h tree (mem_preorder_self tree)).1
        fun child hchild => ih child hchild (h.child hchild)⟩

end

/-! ## The walk -/

theorem length_preorders {nodes : List Node}
    (h : ∀ node ∈ nodes, node.preorder.length = node.size) :
    (preorders nodes).length = sizes nodes := by
  induction nodes with
  | nil => rfl
  | cons node nodes ih =>
    obtain ⟨hnode, hnodes⟩ := List.forall_mem_cons.1 h
    rw [preorders, List.length_append, hnode, ih hnodes, sizes]

theorem length_preorder (node : Node) : node.preorder.length = node.size := by
  induction node using induction with
  | step node ih =>
    rw [preorder_eq, List.length_cons, length_preorders ih, size_eq, Nat.add_comm]

/-- **A walk is the recursive one.** The stack is empty after one visit of every node, and the nodes
of wanted kinds come out in the recursive order. That is the order of their positions, each position
with such a node once; in a tree that is laid out as a text is, it is the order of the text,
outermost first. The walk for calls finds the calls in the same order. -/
theorem walkKinds_in_order (tree : Node) (wanted : Kind → Bool) :
    tree.visits.length = tree.size ∧
      tree.walkKinds wanted = tree.preorder.filter (fun node => wanted node.kind) ∧
      (∃ places : List Position, places.Pairwise (· < ·) ∧
        (∀ place, place ∈ places ↔
          ∃ node, tree.at? place = some node ∧ wanted node.kind = true) ∧
        places.map tree.at? = (tree.walkKinds wanted).map some) ∧
      (tree.IsLaidOut → (tree.walkKinds wanted).Pairwise Precedes) ∧
      tree.calls = tree.walkKinds (· == .callExpression) := by
  have walked : tree.walkKinds wanted = tree.preorder.filter (fun node => wanted node.kind) := by
    rw [walkKinds, walk_eq]
  refine ⟨?_, walked, ?_, fun laidOut => ?_, calls_eq tree⟩
  · rw [← length_preorder, ← walk_eq, walk, List.length_map]
  · let holds (found : Option Node) : Bool := found.any fun node => wanted node.kind
    refine ⟨tree.positions.filter (holds ∘ tree.at?), (sorted_positions tree).filter _, ?_, ?_⟩
    · intro place
      rw [List.mem_filter, mem_positions]
      constructor
      · rintro ⟨⟨node, hnode⟩, hwanted⟩
        rw [Function.comp_apply, hnode] at hwanted
        exact ⟨node, hnode, hwanted⟩
      · rintro ⟨node, hnode, hwanted⟩
        refine ⟨⟨node, hnode⟩, ?_⟩
        rw [Function.comp_apply, hnode]
        exact hwanted
    · calc (tree.positions.filter (holds ∘ tree.at?)).map tree.at?
        _ = (tree.positions.map tree.at?).filter holds := List.filter_map.symm
        _ = (tree.preorder.map some).filter holds := by rw [map_at?_positions]
        _ = (tree.preorder.filter (holds ∘ some)).map some := List.filter_map
        _ = (tree.walkKinds wanted).map some := by rw [walked]; rfl
  · rw [walked]
    exact laidOut.precedes.filter _

/-- The tree of a text with two calls among the arguments of another one. -/
def nestedCalls : Node :=
  parse "f(g(x), h());".toList

/-- The outer call comes first, and then the inner ones as they are written. -/
theorem walkKinds_in_order_nestedCalls :
    nestedCalls.IsLaidOut ∧ nestedCalls.calls.map span = [⟨0, 12⟩, ⟨2, 4⟩, ⟨8, 3⟩] ∧
      nestedCalls.calls.Pairwise Precedes := by
  obtain ⟨-, walked, -, laidOut, calls⟩ :=
    walkKinds_in_order nestedCalls (· == .callExpression)
  have nested : nestedCalls.IsLaidOut := by decide +kernel
  refine ⟨nested, ?_, ?_⟩
  · rw [calls, walked]
    decide +kernel
  · rw [calls]
    exact laidOut nested

end RouteTrim.Tree.Node
