import RouteTrim.Proofs.Tree.Node

/-!
# Trees in another place

A tree is put into another place of a text by a map of its spans; nothing else of it changes.

A visit knows the node it stands in, so the stack of a walk is not only a forest: `visitsFrom` is
the recursive order of the visits, as `preorder` is the one of the nodes.
-/

set_option autoImplicit false

namespace RouteTrim.Tree.Node

theorem induction {motive : Node → Prop}
    (step : ∀ node : Node, (∀ child ∈ node.children, motive child) → motive node) :
    ∀ node, motive node
  | .mk kind role span children =>
    step (.mk kind role span children) fun child (_ : child ∈ children) => induction step child
termination_by node => sizeOf node

mutual

/-- Whether two trees are the same. -/
def decEq : (a b : Node) → Decidable (a = b)
  | mk kind role span children, mk kind' role' span' children' =>
    match decEqAll children children' with
    | isTrue h =>
      decidable_of_iff (kind = kind' ∧ role = role' ∧ span = span') (by simp [h])
    | isFalse h => isFalse fun same => h (Node.mk.inj same).2.2.2

/-- Whether two lists of trees are the same. -/
def decEqAll : (as bs : List Node) → Decidable (as = bs)
  | [], [] => isTrue rfl
  | [], _ :: _ => isFalse (by simp)
  | _ :: _, [] => isFalse (by simp)
  | a :: as, b :: bs =>
    match decEq a b, decEqAll as bs with
    | isTrue h, isTrue hs => isTrue (by rw [h, hs])
    | isFalse h, _ => isFalse fun same => h (List.cons.inj same).1
    | _, isFalse hs => isFalse fun same => hs (List.cons.inj same).2

end

instance : DecidableEq Node :=
  decEq

/-! ## The nodes of a tree -/

theorem mem_preorders {node : Node} {nodes : List Node} :
    node ∈ preorders nodes ↔ ∃ tree ∈ nodes, node ∈ tree.preorder := by
  induction nodes with
  | nil => simp [preorders]
  | cons tree nodes ih => simp [preorders, ih]

theorem mem_preorder {node tree : Node} :
    node ∈ tree.preorder ↔ node = tree ∨ ∃ child ∈ tree.children, node ∈ child.preorder := by
  rw [preorder_eq, List.mem_cons, mem_preorders]

theorem mem_preorder_self (node : Node) : node ∈ node.preorder :=
  mem_preorder.2 (.inl rfl)

theorem mem_preorder_of_child {node child tree : Node} (hchild : child ∈ tree.children)
    (h : node ∈ child.preorder) : node ∈ tree.preorder :=
  mem_preorder.2 (.inr ⟨child, hchild, h⟩)

theorem mem_preorder_trans {node inner tree : Node} (h : node ∈ inner.preorder)
    (hinner : inner ∈ tree.preorder) : node ∈ tree.preorder := by
  induction tree using induction with
  | step tree ih =>
    rcases mem_preorder.1 hinner with rfl | ⟨child, hchild, hinner⟩
    · exact h
    · exact mem_preorder_of_child hchild (ih child hchild hinner)

theorem size_le_sizes {node : Node} {nodes : List Node} (h : node ∈ nodes) :
    node.size ≤ sizes nodes := by
  induction nodes with
  | nil => exact absurd h (by simp)
  | cons first nodes ih =>
    rw [sizes]
    rcases List.mem_cons.1 h with rfl | h
    · omega
    · have := ih h
      omega

theorem size_le_of_mem_preorder {node tree : Node} (h : node ∈ tree.preorder) :
    node.size ≤ tree.size := by
  induction tree using induction with
  | step tree ih =>
    rcases mem_preorder.1 h with rfl | ⟨child, hchild, h⟩
    · exact Nat.le_refl _
    · have below := ih child hchild h
      have within := size_le_sizes hchild
      have whole := size_eq tree
      omega

/-- No tree is in the tree of one of its own children. -/
theorem not_mem_preorder_of_child {node child : Node} (hchild : child ∈ node.children) :
    node ∉ child.preorder := by
  intro h
  have below := size_le_of_mem_preorder h
  have within := size_le_sizes hchild
  rw [size_eq node] at below
  omega

theorem mem_children_of_child? {node child : Node} {role : Role}
    (h : node.child? role = some child) :
    child ∈ node.children :=
  List.mem_of_find?_eq_some h

theorem role_of_child? {node child : Node} {role : Role} (h : node.child? role = some child) :
    child.role = role := by
  simpa using List.find?_some h

/-! ## Maps of spans -/

mutual

def mapSpans (f : Span → Span) : Node → Node
  | mk kind role span children => mk kind role (f span) (mapSpansAll f children)

/-- The trees of a list with their spans mapped. -/
def mapSpansAll (f : Span → Span) : List Node → List Node
  | [] => []
  | node :: nodes => mapSpans f node :: mapSpansAll f nodes

end

section

variable (f : Span → Span)

theorem mapSpansAll_eq (nodes : List Node) : mapSpansAll f nodes = nodes.map (mapSpans f) := by
  induction nodes with
  | nil => rfl
  | cons node nodes ih => rw [mapSpansAll, ih, List.map_cons]

theorem mapSpans_eq (node : Node) :
    node.mapSpans f = .mk node.kind node.role (f node.span) (node.children.map (mapSpans f)) := by
  cases node
  rw [mapSpans, mapSpansAll_eq]
  rfl

@[simp] theorem kind_mapSpans (node : Node) : (node.mapSpans f).kind = node.kind := by
  rw [mapSpans_eq]; rfl

@[simp] theorem role_mapSpans (node : Node) : (node.mapSpans f).role = node.role := by
  rw [mapSpans_eq]; rfl

@[simp] theorem span_mapSpans (node : Node) : (node.mapSpans f).span = f node.span := by
  rw [mapSpans_eq]; rfl

@[simp] theorem children_mapSpans (node : Node) :
    (node.mapSpans f).children = node.children.map (mapSpans f) := by
  rw [mapSpans_eq]; rfl

end

theorem mapSpans_id (node : Node) : node.mapSpans id = node := by
  induction node using induction with
  | step node ih =>
    rw [mapSpans_eq, List.map_congr_left ih, List.map_id']
    cases node
    rfl

/-! ## The order of visits -/

mutual

/-- The visits of a tree by recursion: the node, then its children's trees one by one. -/
def visitsFrom : Option Node → Node → List Visit
  | parent, mk kind role span children =>
    ⟨parent, mk kind role span children⟩ :: visitsBelow (mk kind role span children) children

def visitsBelow : Node → List Node → List Visit
  | _, [] => []
  | parent, node :: nodes => visitsFrom (some parent) node ++ visitsBelow parent nodes

end

theorem visitsFrom_eq (parent : Option Node) (node : Node) :
    visitsFrom parent node = ⟨parent, node⟩ :: visitsBelow node node.children := by
  cases node
  rw [visitsFrom]
  rfl

theorem visitsBelow_append (parent : Node) (xs ys : List Node) :
    visitsBelow parent (xs ++ ys) = visitsBelow parent xs ++ visitsBelow parent ys := by
  induction xs with
  | nil => rfl
  | cons x xs ih => simp only [List.cons_append, visitsBelow, ih, List.append_assoc]

theorem visitsBelow_eq (parent : Node) (nodes : List Node) :
    visitsBelow parent nodes = nodes.flatMap (visitsFrom (some parent)) := by
  induction nodes with
  | nil => rfl
  | cons node nodes ih => rw [visitsBelow, ih, List.flatMap_cons]

theorem visitAll_eq (stack : List Visit) :
    visitAll stack = stack.flatMap fun visit => visitsFrom visit.parent visit.node := by
  induction stack using visitAll.induct with
  | case1 => rw [visitAll]; rfl
  | case2 visit stack ih =>
    have pending : visit.node.childVisits.flatMap (fun next => visitsFrom next.parent next.node)
        = visitsBelow visit.node visit.node.children := by
      rw [visitsBelow_eq, childVisits, List.flatMap_map]
    rw [visitAll, ih, List.flatMap_append, pending, List.flatMap_cons, visitsFrom_eq,
      List.cons_append]

/-- The visits with a stack are the recursive ones. -/
theorem visits_eq (node : Node) : node.visits = visitsFrom none node := by
  rw [visits, visitAll_eq]
  exact List.append_nil _

theorem map_node_visitsFrom (parent : Option Node) (node : Node) :
    (visitsFrom parent node).map Visit.node = node.preorder := by
  have h := nodesOf_visitAll [⟨parent, node⟩]
  rw [visitAll_eq] at h
  simpa [nodesOf, preorders] using h

/-- A visit in some of the children of a node. -/
def Visit.Below (visit : Visit) (parent : Node) (nodes : List Node) : Prop :=
  visit.node ∈ preorders nodes ∧
    (visit.parent = some parent ∨ ∃ outer ∈ preorders nodes, visit.parent = some outer)

theorem below_of_mem_visitsBelow {visit : Visit} {parent : Node} {nodes : List Node}
    (h : visit ∈ visitsBelow parent nodes) : visit.Below parent nodes := by
  have below (node : Node) : ∀ parent, ∀ visit ∈ visitsFrom parent node,
      visit.node ∈ node.preorder ∧
        (visit.parent = parent ∨ ∃ outer ∈ node.preorder, visit.parent = some outer) := by
    induction node using induction with
    | step node ih =>
      intro parent visit hvisit
      rw [visitsFrom_eq, visitsBelow_eq, List.mem_cons, List.mem_flatMap] at hvisit
      rcases hvisit with rfl | ⟨child, hchild, hvisit⟩
      · exact ⟨mem_preorder_self _, .inl rfl⟩
      · obtain ⟨hnode, hparent⟩ := ih child hchild _ visit hvisit
        refine ⟨mem_preorder_of_child hchild hnode, .inr ?_⟩
        rcases hparent with hparent | ⟨outer, houter, hparent⟩
        · exact ⟨_, mem_preorder_self _, hparent⟩
        · exact ⟨outer, mem_preorder_of_child hchild houter, hparent⟩
  rw [visitsBelow_eq, List.mem_flatMap] at h
  obtain ⟨node, hnode, h⟩ := h
  obtain ⟨hin, hparent⟩ := below node _ visit h
  refine ⟨mem_preorders.2 ⟨node, hnode, hin⟩, ?_⟩
  rcases hparent with hparent | ⟨outer, houter, hparent⟩
  · exact .inl hparent
  · exact .inr ⟨outer, mem_preorders.2 ⟨node, hnode, houter⟩, hparent⟩

end RouteTrim.Tree.Node
