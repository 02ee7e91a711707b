import RouteTrim.Proofs.Tree.Node

/-!
# The file of one constant

A literal is read back by putting it into a file of its own, as the value of a constant. The file's
tree is one declaration over the literal, so the literal's node is the first node of its kind that a
walk of the file meets.
-/

set_option autoImplicit false

namespace RouteTrim.Tree

/-- The tree of a file that declares one constant. What its nodes cover is left open: whether a
declaration takes in its semicolon is up to the parser. -/
inductive DeclaresConstant (value : Node) : Node → Prop
  | intro (file declaration declarator name : Span) (role : Role) :
    DeclaresConstant value (.mk .program .plain file
      [.mk .variableDeclaration .plain declaration
        [.mk .variableDeclarator .plain declarator
          [.mk .identifier role name [], value.withRole .value]]])

/-- The value of a constant is the first node of its kind in the file, unless it is a name. -/
theorem DeclaresConstant.walkKinds {value file : Node} {kind : Kind}
    (declares : DeclaresConstant value file) (h : value.kind = kind)
    (hother : kind ∉ [.program, .variableDeclaration, .variableDeclarator, .identifier]) :
    ∃ others, file.walkKinds (· == kind) = value.withRole .value :: others := by
  obtain ⟨whole, declaration, declarator, name, role⟩ := declares
  have hkind : (value.withRole .value).kind = kind := by rw [Node.kind_withRole, h]
  simp only [List.mem_cons, List.not_mem_nil, or_false, not_or] at hother
  obtain ⟨hprogram, hdeclaration, hdeclarator, hidentifier⟩ := hother
  unfold Node.walkKinds
  rw [Node.walk_eq]
  simp only [Node.preorder, Node.preorders, Node.preorder_eq (value.withRole .value),
    List.append_nil, List.cons_append, List.nil_append]
  refine ⟨(Node.preorders (value.withRole .value).children).filter fun node =>
    node.kind == kind, ?_⟩
  rw [List.filter_cons_of_neg (by simpa [Node.kind] using Ne.symm hprogram),
    List.filter_cons_of_neg (by simpa [Node.kind] using Ne.symm hdeclaration),
    List.filter_cons_of_neg (by simpa [Node.kind] using Ne.symm hdeclarator),
    List.filter_cons_of_neg (by simpa [Node.kind] using Ne.symm hidentifier),
    List.filter_cons_of_pos (by simp [hkind])]

end RouteTrim.Tree
