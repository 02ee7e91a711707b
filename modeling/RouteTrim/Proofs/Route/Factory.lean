import RouteTrim.Proofs.Route.Site
import RouteTrim.Proofs.Route.Writing
import RouteTrim.Route.Factory
import Mathlib.Data.List.TakeWhile

/-!
# The registry field of an edited factory

The registry of a compiled factory is the value of its one assignment to the registry field. A
literal in the place of that value is no assignment, and what is assigned to stays, so the edited
factory has the same one assignment, now of the literal.
-/

set_option autoImplicit false

namespace RouteTrim.Route

open RouteTrim.Settings (BuildConfig)
open RouteTrim.Tree

/-! ## The edit of an assignment -/

def valueEdit (assignment value : Node) (literal : Writing) : Edit :=
  { span := value.span
    text := literal.chars
    kind := assignment.kind
    role := assignment.role
    whole := assignment.span
    kept := assignment.children.takeWhile fun child => child.role != .right
    dropped := assignment.children.dropWhile fun child => child.role != .right
    fresh := [(literal.node value.span.start).withRole .right] }

/-- The edit of a file that puts a registry into its place in a factory. -/
def fieldEdit? (source : Source) (config : BuildConfig) (literal : Writing) : Option Edit :=
  match registryAssignments source config with
  | [assignment] => (assignment.child? .right).map fun value => valueEdit assignment value literal
  | _ => none

section

variable {assignment value : Node} {literal : Writing}

theorem site_valueEdit : (valueEdit assignment value literal).site = assignment := by
  cases assignment
  simp [valueEdit, Edit.site, Node.kind, Node.role, Node.span, Node.children,
    List.takeWhile_append_dropWhile]

theorem plain_valueEdit : (valueEdit assignment value literal).Plain := by
  intro tree htree
  obtain rfl := List.mem_singleton.1 htree
  exact (Writing.isPlain_node _ literal).withRole .right

theorem child?_right_valueEdit : (valueEdit assignment value literal).newSite.child? .right
    = some ((literal.node value.span.start).withRole .right) := by
  have none_kept : (valueEdit assignment value literal).kept.find? (fun child => child.role == .right)
      = none := by
    refine List.find?_eq_none.2 fun child hchild => ?_
    simpa using List.mem_takeWhile_imp hchild
  rw [Node.child?, Edit.children_newSite, List.find?_append, none_kept]
  simp [valueEdit]

end

variable {e : Edit} {source source' : Source} {config : BuildConfig} {literal : Writing}

/-! ## What is assigned to -/

/-- Whether a node is an assignment to the registry field. -/
def assignsRegistry (source : Source) (config : BuildConfig) (node : Node) : Bool :=
  node.kind == .assignmentExpression &&
    (node.child? .left).any (isRegistryField source config)

theorem registryAssignments_eq : registryAssignments source config
    = source.root.preorder.filter (assignsRegistry source config) := by
  rw [registryAssignments, Node.walkKinds, Node.walk_eq, List.filter_filter]
  exact List.filter_congr fun node _ => Bool.and_comm ..

theorem any_rel {α β : Type} {R : α → β → Prop} {a : Option α} {b : Option β} {p : α → Bool}
    {q : β → Bool} (h : Option.Rel R a b) (agree : ∀ x y, R x y → q y = p x) :
    b.any q = a.any p := by
  cases h with
  | none => rfl
  | some h => exact agree _ _ h

theorem isRegistryField_eq (revises : e.Revises source source') {target target' : Node}
    (h : e.Counterpart target target') :
    isRegistryField source' config target' = isRegistryField source config target := by
  unfold isRegistryField
  rw [h.kind_eq]
  by_cases hkind : target.kind = .memberExpression
  · have other : target ≠ e.site := revises.turns.sound.kind_ne (by decide) hkind
    rw [any_rel (h.child? other .object) fun _ _ object => by rw [object.kind_eq],
      any_rel (h.property_apart other hkind) fun _ _ property => by
        rw [revises.slice_apart property]]
  · rw [beq_false_of_ne hkind]
    rfl

theorem Edit.Sound.left_eq (sound : e.Sound) (kind : e.kind = .assignmentExpression) :
    ∃ left ∈ e.kept, e.site.child? .left = some left ∧ e.newSite.child? .left = some left := by
  obtain ⟨node, hnode, hrole⟩ := sound.left kind
  cases hleft : e.kept.find? fun child => child.role == .left with
  | none => exact absurd (List.find?_eq_none.1 hleft node hnode) (by simp [hrole])
  | some left =>
    refine ⟨left, List.mem_of_find?_eq_some hleft, ?_, ?_⟩
    · rw [Node.child?, Edit.children_site, List.find?_append, hleft]
      rfl
    · rw [Node.child?, Edit.children_newSite, List.find?_append, hleft]
      rfl

theorem assignsRegistry_eq (revises : e.Revises source source') {node node' : Node}
    (h : e.Counterpart node node') :
    assignsRegistry source' config node' = assignsRegistry source config node := by
  have sound := revises.turns.sound
  unfold assignsRegistry
  rw [h.kind_eq]
  by_cases hkind : node.kind = .assignmentExpression
  · by_cases hsite : node = e.site
    · subst hsite
      rw [h.site_eq sound]
      obtain ⟨left, hkept, hold, hnew⟩ := Edit.Sound.left_eq sound hkind
      rw [hold, hnew]
      exact congrArg _ (isRegistryField_eq revises (.apart (sound.kept left hkept).apart))
    · rw [any_rel (h.child? hsite .left) fun _ _ left => isRegistryField_eq revises left]
  · rw [beq_false_of_ne hkind]
    rfl

/-- **The one assignment to the registry field stays the only one**, if the edit is made in it. -/
theorem registryAssignments_edited (revises : e.Revises source source') (plain : e.Plain)
    (h : registryAssignments source config = [e.site]) :
    registryAssignments source' config = [e.newSite] := by
  have sound := revises.turns.sound
  have assignments : List.Forall₂ e.Counterpart (registryAssignments source config)
      (registryAssignments source' config) := by
    rw [registryAssignments_eq, registryAssignments_eq]
    refine revises.turns.counterpart.filter_preorder sound
      (fun _ _ pair => (assignsRegistry_eq revises pair).symm) ?_ ?_
    · intro node hnode gone
      refine Bool.eq_false_iff.2 fun found => ?_
      have hmem : node ∈ registryAssignments source config := by
        rw [registryAssignments_eq]
        exact List.mem_filter.2 ⟨hnode, found⟩
      rw [h, List.mem_singleton] at hmem
      exact Edit.site_not_mem_dropped gone (hmem ▸ Node.mem_preorder_self _)
    · intro node come
      have noAssignment : ∀ kind ∈ plainKinds, (kind == .assignmentExpression) = false := by decide
      rw [assignsRegistry, noAssignment _ (plain.kind come), Bool.false_and]
  rw [h, List.forall₂_cons_left_iff] at assignments
  obtain ⟨node', none, pair, hnone, hnodes⟩ := assignments
  rw [List.forall₂_nil_left_iff] at hnone
  rw [hnodes, hnone, pair.site_eq sound]

/-! ## Patched factories -/

theorem setRegistryField_eq_ok {registry patched : String} :
    setRegistryField source registry config = .ok patched ↔ ∃ assignment value,
      registryAssignments source config = [assignment] ∧ assignment.child? .right = some value ∧
      patched = source.replace value.span registry := by
  unfold setRegistryField
  constructor
  · intro h
    split at h
    · next value hvalue =>
      obtain ⟨assignment, hassignment, hright⟩ := List.map_eq_singleton_iff.1 hvalue
      exact ⟨assignment, value, hassignment, hright, (Except.ok.inj h).symm⟩
    · exact absurd h (by simp)
  · rintro ⟨assignment, value, hassignment, hright, rfl⟩
    rw [hassignment, List.map_singleton, hright]

theorem fieldEdit?_eq_some : fieldEdit? source config literal = some e ↔ ∃ assignment value,
    registryAssignments source config = [assignment] ∧ assignment.child? .right = some value ∧
    valueEdit assignment value literal = e := by
  unfold fieldEdit?
  split
  · next assignment hassignment => simp [hassignment]
  · next other =>
    refine ⟨fun h => absurd h (by simp), ?_⟩
    rintro ⟨assignment, value, hassignment, -, -⟩
    exact absurd hassignment (other assignment)

/-- **A registry in the place of another is where the first one was.** -/
theorem setRegistryField_edited (edit : fieldEdit? source config literal = some e)
    (revises : e.Revises source source') (registry : String) :
    setRegistryField source' registry config = setRegistryField source registry config := by
  obtain ⟨assignment, value, hassignment, hright, rfl⟩ := fieldEdit?_eq_some.1 edit
  have assignments : registryAssignments source' config
      = [(valueEdit assignment value literal).newSite] :=
    registryAssignments_edited revises plain_valueEdit (by rw [site_valueEdit, hassignment])
  have old : setRegistryField source registry config
      = .ok (source.replace value.span registry) :=
    setRegistryField_eq_ok.2 ⟨assignment, value, hassignment, hright, rfl⟩
  rw [old]
  refine setRegistryField_eq_ok.2 ⟨_, _, assignments, child?_right_valueEdit, ?_⟩
  have text : source'.text = value.span.replace source.text ([] ++ literal.chars) := revises.text
  have within : value.span.stop ≤ source.text.length := revises.within
  have place := @Span.replace_of_replace source.text [] literal.chars registry.toList _ within
  rw [Source.replace, Source.replace, text, Node.span_withRole, Writing.span_node]
  exact congrArg String.ofList place.symm

theorem patchFactory_edit [Parser] {content patched path : String} {links : List Link}
    (success : patchFactory content (registryText links) config path = .ok patched) :
    ∃ e, fieldEdit? (.ofText content path) config (registryWriting links) = some e ∧ e.Plain ∧
      patched = (Source.ofText content path).replace e.span (String.ofList e.text) := by
  obtain ⟨assignment, value, hassignment, hright, rfl⟩ := setRegistryField_eq_ok.1 success
  refine ⟨_, fieldEdit?_eq_some.2 ⟨assignment, value, hassignment, hright, rfl⟩, plain_valueEdit,
    ?_⟩
  show _ = (Source.ofText content path).replace value.span
    (String.ofList (registryWriting links).chars)
  rw [chars_registryWriting]
  rfl

end RouteTrim.Route
