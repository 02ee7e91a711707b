import RouteTrim.Proofs.Tree.Node
import RouteTrim.Route.RegistryReader
import Mathlib.Data.List.Forall2

/-!
# Values of literals

A `Value` is what a literal without names in it stands for: nothing, a text, a list of values, or
an object of them. `Denotes` says which nodes of a file stand for it, and what a registry's reader
asks of a node is answered here by the value alone: the properties of an object are its members,
and the last property with a name is the last member with it.
-/

set_option autoImplicit false

namespace RouteTrim.Route

open RouteTrim.Tree

/-- What a plain literal stands for. -/
inductive Value where
  | null
  | text (s : String)
  | array (items : List Value)
  | object (members : List (String × Value))

mutual

/-- Which nodes of a file stand for a value. -/
inductive Denotes (source : Source) : Value → Node → Prop where
  | null {node : Node} : node.kind = .nullLiteral → Denotes source .null node
  | text {s : String} {node : Node} : node.kind = .string → valueText source node = s →
      Denotes source (.text s) node
  | array {items : List Value} {node : Node} : node.kind = .array →
      List.Forall₂ (Denotes source) items node.children → Denotes source (.array items) node
  | object {members : List (String × Value)} {node : Node} : node.kind = .object →
      List.Forall₂ (DenotesMember source) members node.children →
      Denotes source (.object members) node

/-- Which nodes of a file stand for a member of an object. -/
inductive DenotesMember (source : Source) : String × Value → Node → Prop where
  | pair {name : String} {v : Value} {node key value : Node} : node.kind = .pair →
      node.child? .key = some key → source.propertyKey key = name →
      node.child? .value = some value → Denotes source v value →
      DenotesMember source (name, v) node

end

section

variable {source : Source}

/-- The part that a node plays does not change what it stands for. -/
theorem Denotes.withRole {v : Value} {node : Node} (h : Denotes source v node)
    (role : Role) : Denotes source v (node.withRole role) := by
  cases h with
  | null hkind => exact .null (by rw [Node.kind_withRole, hkind])
  | text hkind htext =>
    refine .text (by rw [Node.kind_withRole, hkind]) ?_
    cases node; exact htext
  | array hkind hitems =>
    exact .array (by rw [Node.kind_withRole, hkind]) (by rwa [Node.children_withRole])
  | object hkind hmembers =>
    exact .object (by rw [Node.kind_withRole, hkind]) (by rwa [Node.children_withRole])

/-! ## Objects -/

/-- The property that a member of an object literal is. -/
def property? (source : Source) (member : Node) : Option Property :=
  match member.kind with
  | .pair => do
    let key ← member.child? .key
    let value ← member.child? .value
    return ⟨source.propertyKey key, value, member⟩
  | .shorthandProperty => some ⟨source.textOf member, member, member⟩
  | _ => none

theorem properties_eq (object : Node) :
    source.properties object = object.children.filterMap (property? source) := rfl

theorem DenotesMember.property?_eq {name : String} {v : Value} {member : Node}
    (h : DenotesMember source (name, v) member) :
    ∃ value, property? source member = some ⟨name, value, member⟩ ∧ Denotes source v value := by
  cases h with
  | pair hkind hkey hname hvalue hdenotes =>
    refine ⟨_, ?_, hdenotes⟩
    unfold property?
    rw [hkind, hkey, hvalue]
    show some _ = _
    rw [hname]

theorem Denotes.properties {members : List (String × Value)} {node : Node}
    (h : Denotes source (.object members) node) :
    List.Forall₂ (fun (member : String × Value) (property : Property) =>
        property.key = member.1 ∧ Denotes source member.2 property.value)
      members (source.properties node) := by
  cases h with
  | object _ hmembers =>
    rw [properties_eq]
    generalize node.children = children at hmembers
    induction hmembers with
    | nil => exact .nil
    | cons hmember _ ih =>
      obtain ⟨value, hproperty, hdenotes⟩ := hmember.property?_eq
      rw [List.filterMap_cons_some hproperty]
      exact .cons ⟨rfl, hdenotes⟩ ih

def lastMember? (name : String) (members : List (String × Value)) : Option Value :=
  (members.reverse.find? fun member => member.1 == name).map Prod.snd

theorem find?_of_forall₂ {α β : Type} {R : α → β → Prop} {p : α → Bool} {q : β → Bool}
    (agree : ∀ a b, R a b → p a = q b) {as : List α} {bs : List β} (h : List.Forall₂ R as bs)
    {a : α} (ha : as.find? p = some a) : ∃ b, bs.find? q = some b ∧ R a b := by
  induction h with
  | nil => exact absurd ha (by simp)
  | @cons first second as bs hfirst _ ih =>
    have same := agree first second hfirst
    cases hp : p first with
    | true =>
      rw [List.find?_cons_of_pos hp] at ha
      obtain rfl := Option.some.inj ha
      exact ⟨second, List.find?_cons_of_pos (same.symm.trans hp), hfirst⟩
    | false =>
      rw [List.find?_cons_of_neg (by simp [hp])] at ha
      obtain ⟨b, hb, hR⟩ := ih ha
      refine ⟨b, ?_, hR⟩
      rw [List.find?_cons_of_neg (by simp [← same, hp])]
      exact hb

theorem Denotes.lastValue? {members : List (String × Value)} {node : Node}
    (h : Denotes source (.object members) node) (name : String) {v : Value}
    (hv : lastMember? name members = some v) :
    ∃ value, lastValue? name (source.properties node) = some value ∧ Denotes source v value := by
  obtain ⟨member, hmember, rfl⟩ := Option.map_eq_some_iff.mp hv
  obtain ⟨property, hproperty, -, hdenotes⟩ :=
    find?_of_forall₂ (q := fun property : Property => property.key == name)
      (fun member property agree => by rw [agree.1]) (List.forall₂_reverse_iff.mpr h.properties)
      hmember
  refine ⟨property.value, ?_, hdenotes⟩
  unfold Route.lastValue?
  rw [hproperty]
  rfl

/-! ## Texts -/

end

end RouteTrim.Route
