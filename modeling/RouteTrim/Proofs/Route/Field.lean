import RouteTrim.Proofs.Route.Factory
import RouteTrim.Proofs.Route.Patch

/-!
# Patching the registry field

A factory is patched exactly if one assignment in it sets the registry field of `this`, at any depth
of its tree. The value of that assignment becomes the registry and no other byte changes; a further
patch takes the place of the first one.

The shapes that are looked for are stated on the tree alone (`Assigns`). As for registration sites,
the parser is trusted to read the edited text as the edited tree (`ReadsEdit`).
-/

set_option autoImplicit false

namespace RouteTrim.Route

open RouteTrim.Settings (BuildConfig)
open RouteTrim.Text (dropLeading?_eq_some isDecimalDigit)
open RouteTrim.Text.Utf8 (Spliced)
open RouteTrim.Tree

/-! ## The one assignment -/

/-- The name of the registry field: the configured one, or that one with a number behind it. -/
def IsFieldName (field name : List Char) : Prop :=
  name = field ∨ ∃ digits, digits ≠ [] ∧ (∀ c ∈ digits, isDecimalDigit c = true) ∧
    name = field ++ '_' :: digits

/-- An assignment expression whose left side is the registry field of `this`. -/
structure Assigns (source : Source) (config : BuildConfig) (node : Node) : Prop where
  kind : node.kind = .assignmentExpression
  left : ∃ target object property, node.child? .left = some target ∧
    target.kind = .memberExpression ∧
    target.child? .object = some object ∧ object.kind = .thisKeyword ∧
    target.child? .property = some property ∧
    IsFieldName config.compiledRegistryField.toList (property.span.slice source.text)

/-- One assignment of a file sets the registry field, to the given value, and no other one does. -/
structure IsOnlyAssignment (source : Source) (config : BuildConfig) (assignment value : Node) :
    Prop where
  assigns : Assigns source config assignment
  only : ∃ front back, source.root.preorder = front ++ assignment :: back ∧
    (∀ node ∈ front, ¬ Assigns source config node) ∧ ∀ node ∈ back, ¬ Assigns source config node
  right : assignment.child? .right = some value

section

variable {source : Source} {config : BuildConfig} {assignment value : Node}

theorem isFieldName_iff {field name : List Char} :
    isFieldName field name = true ↔ IsFieldName field name := by
  unfold isFieldName IsFieldName
  split
  · next h =>
    rw [dropLeading?_eq_some, List.append_nil] at h
    simp [h]
  · next digits h =>
    rw [dropLeading?_eq_some] at h
    subst h
    simp
  · next notBare notNumbered =>
    refine ⟨fun h => absurd h (by simp), ?_⟩
    rintro (rfl | ⟨digits, -, -, rfl⟩)
    · exact absurd (dropLeading?_eq_some.2 (List.append_nil _).symm) notBare
    · exact absurd (dropLeading?_eq_some.2 rfl) (notNumbered digits)

theorem isRegistryField_iff {target : Node} : isRegistryField source config target = true ↔
    ∃ object property, target.kind = .memberExpression ∧
      target.child? .object = some object ∧ object.kind = .thisKeyword ∧
      target.child? .property = some property ∧
      IsFieldName config.compiledRegistryField.toList (property.span.slice source.text) := by
  simp only [isRegistryField, Bool.and_eq_true, beq_iff_eq, Option.any_eq_true, isFieldName_iff]
  constructor
  · rintro ⟨⟨kind, object, hobject, this⟩, property, hproperty, name⟩
    exact ⟨object, property, kind, hobject, this, hproperty, name⟩
  · rintro ⟨object, property, kind, hobject, this, hproperty, name⟩
    exact ⟨⟨kind, object, hobject, this⟩, property, hproperty, name⟩

/-- The search knows an assignment by its shape. -/
theorem assignsRegistry_iff {node : Node} :
    assignsRegistry source config node = true ↔ Assigns source config node := by
  simp only [assignsRegistry, Bool.and_eq_true, beq_iff_eq, Option.any_eq_true, isRegistryField_iff]
  constructor
  · rintro ⟨kind, target, hleft, object, property, member⟩
    exact ⟨kind, target, object, property, hleft, member⟩
  · rintro ⟨kind, target, object, property, hleft, member⟩
    exact ⟨kind, target, hleft, object, property, member⟩

/-- The search finds one assignment exactly if there is one. -/
theorem registryAssignments_eq_singleton : registryAssignments source config = [assignment] ↔
    Assigns source config assignment ∧ ∃ front back,
      source.root.preorder = front ++ assignment :: back ∧
      (∀ node ∈ front, ¬ Assigns source config node) ∧
      ∀ node ∈ back, ¬ Assigns source config node := by
  simp only [registryAssignments_eq, List.filter_eq_cons_iff, List.filter_eq_nil_iff,
    assignsRegistry_iff]
  constructor
  · rintro ⟨front, back, parts, before, assigns, behind⟩
    exact ⟨assigns, front, back, parts, before, behind⟩
  · rintro ⟨assigns, front, back, parts, before, behind⟩
    exact ⟨front, back, parts, before, assigns, behind⟩

theorem isOnlyAssignment_iff : IsOnlyAssignment source config assignment value ↔
    registryAssignments source config = [assignment] ∧ assignment.child? .right = some value := by
  rw [registryAssignments_eq_singleton]
  constructor
  · rintro ⟨assigns, only, right⟩
    exact ⟨⟨assigns, only⟩, right⟩
  · rintro ⟨⟨assigns, only⟩, right⟩
    exact ⟨assigns, only, right⟩

end

/-! ## Patched fields -/

/-- What a patch of a factory is. -/
structure PatchedField [Parser] (config : BuildConfig)
    (path content patched registry : String) : Prop where
  /-- The value of the one assignment becomes the registry, between two characters. -/
  splice : ∃ assignment value front back,
    IsOnlyAssignment (.ofText content path) config assignment value ∧
    Spliced content patched front ((Source.ofText content path).textOf value) registry back
  /-- Patching it again changes nothing. -/
  again : patchFactory patched registry config path = .ok patched
  /-- Patching it with another registry is patching the first text with that one. -/
  other : ∀ other, patchFactory patched other config path = patchFactory content other config path

section

variable {config : BuildConfig} {path content patched registry : String} {links : List Link}

theorem patchFactory_eq_ok [Parser] : patchFactory content registry config path = .ok patched ↔
    ∃ assignment value, IsOnlyAssignment (.ofText content path) config assignment value ∧
      patched = (Source.ofText content path).replace value.span registry := by
  simp only [patchFactory, setRegistryField_eq_ok, isOnlyAssignment_iff, and_assoc]

/-- **A factory is patched if one assignment sets its registry field**, and only then; the registry
takes the place of the value that is assigned, and of any registry put there before. The texts of
its links have no line ends, and the parser reads the edited text as the edit of the tree. -/
theorem patchFactory_registryText [Parser] (oneLine : ∀ link ∈ links, link.OneLine)
    (parser : ∀ e ∈ fieldEdit? (.ofText content path) config (registryWriting links),
      (registryWriting links).Valid → ReadsEdit content.toList e) :
    ((∃ patched, patchFactory content (registryText links) config path = .ok patched) ↔
      ∃ assignment value, IsOnlyAssignment (.ofText content path) config assignment value) ∧
    ∀ patched, patchFactory content (registryText links) config path = .ok patched →
      PatchedField config path content patched (registryText links) := by
  constructor
  · simp only [patchFactory_eq_ok]
    constructor
    · rintro ⟨-, assignment, value, only, -⟩
      exact ⟨assignment, value, only⟩
    · rintro ⟨assignment, value, only⟩
      exact ⟨_, assignment, value, only, rfl⟩
  · intro patched success
    obtain ⟨e, edit, -, hpatched⟩ := patchFactory_edit success
    have revises := (parser e edit (valid_registryWriting oneLine)).revises path
    rw [← hpatched] at revises
    have other : ∀ other, patchFactory patched other config path
        = patchFactory content other config path := setRegistryField_edited edit revises
    refine ⟨?_, (other _).trans success, other⟩
    obtain ⟨assignment, value, only, rfl⟩ := patchFactory_eq_ok.1 success
    obtain ⟨front, back, spliced⟩ :=
      spliced_replace (.ofText content path) value.span (registryText links)
    have whole : String.ofList (Source.ofText content path).text = content := String.ofList_toList
    rw [whole] at spliced
    exact ⟨assignment, value, front, back, only, spliced⟩

end

/-- A factory with one numbered registry field, behind a comment with a wide character. The second
name has no number behind its `_`, and assigns in its own value. -/
def sampleFactory : String :=
  "// módulo raíz\nthis._DeepLinkConfigToken_53 = (null as any);\n" ++
    "this._DeepLinkConfigToken_5x = this.a = 1;"

/-- The way from the file down to the numbered assignment. -/
def sampleFieldWay : List Frame :=
  wayAlong [0, 0] (parse sampleFactory.toList)

/-- The first awkward link brings quotes, backslashes, comment signs and brackets into the factory,
which is patched. -/
theorem patchFactory_awkwardLink :
    ∃ patched, patchFactory sampleFactory (registryText (awkwardLinks.take 1))
        ImportGraph.sampleConfig "app.module.ngfactory.ts" = .ok patched ∧
      PatchedField ImportGraph.sampleConfig "app.module.ngfactory.ts" sampleFactory patched
        (registryText (awkwardLinks.take 1)) := by
  have oneLine : ∀ link ∈ awkwardLinks.take 1, link.OneLine := by
    intro link hlink
    obtain rfl := List.mem_singleton.1 hlink
    exact ⟨by decide, by decide, by simp; decide, by decide, by decide⟩
  have read : (fieldEdit? (.ofText sampleFactory "app.module.ngfactory.ts") ImportGraph.sampleConfig
      (registryWriting (awkwardLinks.take 1))).any
        (fun e => e.ReadAlong sampleFieldWay sampleFactory.toList) = true := by
    -- The kernel takes long to decode a text, so its characters are named here.
    have chars : sampleFactory.toList = _ :=
      String.toList_append.trans (congrArg₂ _ String.toList_ofList String.toList_ofList)
    rw [Source.ofText, sampleFieldWay, chars]
    decide +kernel
  obtain ⟨e, edit, along⟩ := (Option.any_eq_true _ _).1 read
  have parser : ∀ e' ∈ fieldEdit? (.ofText sampleFactory "app.module.ngfactory.ts")
        ImportGraph.sampleConfig (registryWriting (awkwardLinks.take 1)),
      (registryWriting (awkwardLinks.take 1)).Valid → ReadsEdit sampleFactory.toList e' := by
    rintro e' edit' -
    obtain rfl := Option.some.inj (edit.symm.trans edit')
    exact (of_decide_eq_true along).readsEdit
  obtain ⟨patchable, patches⟩ := patchFactory_registryText oneLine parser
  obtain ⟨assignment, value, one, right, -⟩ := fieldEdit?_eq_some.1 edit
  obtain ⟨patched, success⟩ := patchable.2 ⟨assignment, value, isOnlyAssignment_iff.2 ⟨one, right⟩⟩
  exact ⟨patched, success, patches patched success⟩

end RouteTrim.Route
