import RouteTrim.Proofs.Tree.Place
import Mathlib.Data.List.Forall2

/-!
# Edits of a tree

An edit replaces a part of a text inside one node, the *site*: the site's last children, if any, go
with the part, and new ones come with the text that is put in its place. In the new tree, the nodes
in front of the part stay, the nodes behind it move, and the nodes around it grow.

How the new tree is read does not follow from the new text: it is what a parser is trusted with.
`Edit.Turns` states that trust for two given trees, as a way from the root down to the site. From it
follows that the visits of the new tree are those of the old one, node by node, but for the visits
of the children that go and that come (`Edit.Counterpart.alike`).
-/

set_option autoImplicit false

namespace RouteTrim.Tree

open Node

/-! ## Ways -/

/-- A node without one of its children. -/
structure Frame where
  kind : Kind
  role : Role
  span : Span
  before : List Node
  after : List Node

def Frame.plug (frame : Frame) (child : Node) : Node :=
  .mk frame.kind frame.role frame.span (frame.before ++ child :: frame.after)

/-- The tree around a node, with the frames from the root down. -/
def plug (way : List Frame) (node : Node) : Node :=
  way.foldr Frame.plug node

/-- The way down a tree by the numbers of the children. -/
def wayAlong : List Nat → Node → List Frame
  | [], _ => []
  | index :: path, node =>
    ⟨node.kind, node.role, node.span, node.children.take index, node.children.drop (index + 1)⟩
      :: (node.children[index]?.elim [] (wayAlong path))

section

variable (frame : Frame) (way : List Frame) (node : Node)

@[simp] theorem plug_nil : plug [] node = node := rfl

@[simp] theorem plug_cons : plug (frame :: way) node = frame.plug (plug way node) := rfl

@[simp] theorem Frame.kind_plug : (frame.plug node).kind = frame.kind := rfl

@[simp] theorem Frame.role_plug : (frame.plug node).role = frame.role := rfl

@[simp] theorem Frame.children_plug :
    (frame.plug node).children = frame.before ++ node :: frame.after := rfl

theorem Frame.mem_children_plug : node ∈ (frame.plug node).children := by simp

theorem mem_preorder_plug : node ∈ (plug way node).preorder := by
  induction way with
  | nil => exact mem_preorder_self node
  | cons frame way ih => exact mem_preorder_of_child (frame.mem_children_plug _) ih

end

/-! ## Edits -/

/-- A change of a text inside one node of its tree. -/
structure Edit where
  /-- The part of the text that is replaced. -/
  span : Span
  /-- What is put in its place. -/
  text : List Char
  kind : Kind
  role : Role
  /-- The text of the site. -/
  whole : Span
  /-- The site's children that stay. -/
  kept : List Node
  /-- The site's children that are replaced. -/
  dropped : List Node
  /-- The children that are put in, where they stand in the new text. -/
  fresh : List Node

namespace Edit

variable (e : Edit)

/-- The node inside which the text changes. -/
def site : Node :=
  .mk e.kind e.role e.whole (e.kept ++ e.dropped)

/-- The span of a node behind the part. -/
def move (span : Span) : Span :=
  ⟨span.start + e.text.length - e.span.length, span.length⟩

/-- The span of a node around the part. -/
def grow (span : Span) : Span :=
  ⟨span.start, span.length + e.text.length - e.span.length⟩

def newSite : Node :=
  .mk e.kind e.role (e.grow e.whole) (e.kept ++ e.fresh)

@[simp] theorem children_site : e.site.children = e.kept ++ e.dropped := rfl

@[simp] theorem children_newSite : e.newSite.children = e.kept ++ e.fresh := rfl

/-- The part begins inside the span, behind its start. -/
def Around (span : Span) : Prop :=
  span.start < e.span.start ∧ e.span.start < span.stop

/-- The span and the part have text in common. -/
def Overlaps (span : Span) : Prop :=
  e.span.start < span.stop ∧ span.start < e.span.stop

/-- The tree of a node ends in front of the part. -/
def InFront (node : Node) : Prop :=
  ∀ inner ∈ node.preorder, inner.span.stop ≤ e.span.start

/-- The tree of a node starts behind the part. -/
def Behind (node : Node) : Prop :=
  ∀ inner ∈ node.preorder, e.span.stop ≤ inner.span.start

instance (span : Span) : Decidable (e.Around span) :=
  inferInstanceAs (Decidable (_ ∧ _))

instance (span : Span) : Decidable (e.Overlaps span) :=
  inferInstanceAs (Decidable (_ ∧ _))

instance (node : Node) : Decidable (e.InFront node) :=
  inferInstanceAs (Decidable (∀ inner ∈ node.preorder, inner.span.stop ≤ e.span.start))

instance (node : Node) : Decidable (e.Behind node) :=
  inferInstanceAs (Decidable (∀ inner ∈ node.preorder, e.span.stop ≤ inner.span.start))

end Edit

/-- The frame in the new tree. -/
def Frame.edited (e : Edit) (frame : Frame) : Frame :=
  { frame with
    span := e.grow frame.span
    after := frame.after.map (mapSpans e.move) }

def nameKinds : List Kind :=
  [.identifier, .propertyIdentifier, .typeIdentifier, .thisKeyword]

/-- A frame on the way to the site, with the part that the child on the way plays in it. The child
is not what the node is called by: a name has no parts in which anything could be replaced. -/
structure Frame.Admits (frame : Frame) (e : Edit) (role : Role) : Prop where
  around : e.Around frame.span
  front : ∀ node ∈ frame.before, e.InFront node
  behind : ∀ node ∈ frame.after, e.Behind node
  kind : frame.kind ∉ nameKinds
  property : frame.kind = .memberExpression → role ≠ .property
  name : frame.kind = .classDeclaration ∨ frame.kind = .abstractClassDeclaration → role ≠ .name

instance (frame : Frame) (e : Edit) (role : Role) : Decidable (frame.Admits e role) :=
  decidable_of_iff (e.Around frame.span ∧ (∀ node ∈ frame.before, e.InFront node) ∧
      (∀ node ∈ frame.after, e.Behind node) ∧ frame.kind ∉ nameKinds ∧
      (frame.kind = .memberExpression → role ≠ .property) ∧
      (frame.kind = .classDeclaration ∨ frame.kind = .abstractClassDeclaration → role ≠ .name))
    ⟨fun ⟨around, front, behind, kind, property, name⟩ =>
        ⟨around, front, behind, kind, property, name⟩,
      fun h => ⟨h.around, h.front, h.behind, h.kind, h.property, h.name⟩⟩

namespace Edit

variable (e : Edit)

/-- Every frame of a way to the site admits the edit. -/
def Fits : List Frame → Prop
  | [] => True
  | frame :: way => frame.Admits e (plug way e.site).role ∧ Fits way

/-- The edit replaces what it says: a part inside the site, behind the children that stay and over
the ones that go. What an assignment assigns to stays. -/
structure Sound : Prop where
  around : e.Around e.whole
  kind : e.kind = .arguments ∨ e.kind = .assignmentExpression
  left : e.kind = .assignmentExpression → ∃ node ∈ e.kept, node.role = .left
  kept : ∀ node ∈ e.kept, e.InFront node
  dropped : ∀ node ∈ preorders e.dropped, e.Overlaps node.span

instance decidableFits : (way : List Frame) → Decidable (e.Fits way)
  | [] => .isTrue trivial
  | _ :: way =>
    have := decidableFits way
    inferInstanceAs (Decidable (_ ∧ _))

instance : Decidable e.Sound :=
  decidable_of_iff (e.Around e.whole ∧ (e.kind = .arguments ∨ e.kind = .assignmentExpression) ∧
      (e.kind = .assignmentExpression → ∃ node ∈ e.kept, node.role = .left) ∧
      (∀ node ∈ e.kept, e.InFront node) ∧ ∀ node ∈ preorders e.dropped, e.Overlaps node.span)
    ⟨fun ⟨around, kind, left, kept, dropped⟩ => ⟨around, kind, left, kept, dropped⟩,
      fun h => ⟨h.around, h.kind, h.left, h.kept, h.dropped⟩⟩

/-- The edit turns one tree into another: at the end of a way from the root the site becomes the new
site, and nothing else changes. -/
structure Turns (old new : Node) : Prop where
  sound : e.Sound
  way : ∃ way, e.Fits way ∧ plug way e.site = old ∧ plug (way.map (Frame.edited e)) e.newSite = new

/-- Spans that an edit leaves where they are or moves. -/
inductive Leaves : (Span → Span) → Node → Prop where
  | front {node : Node} : e.InFront node → Leaves id node
  | behind {node : Node} : e.Behind node → Leaves e.move node

/-- A tree apart from the edit and its place in the new text. -/
def Apart (old new : Node) : Prop :=
  ∃ f, e.Leaves f old ∧ new = old.mapSpans f

/-- A node of the old tree and the node of the new tree that it becomes. -/
inductive Counterpart (old new : Node) : Prop where
  | apart : e.Apart old new → Counterpart old new
  | around (way : List Frame) : e.Fits way → old = plug way e.site →
      new = plug (way.map (Frame.edited e)) e.newSite → Counterpart old new

end Edit

open Edit

section

variable {e : Edit} {f : Span → Span} {old new node : Node}

theorem Edit.Turns.counterpart (h : e.Turns old new) : e.Counterpart old new := by
  obtain ⟨way, fits, rfl, rfl⟩ := h.way
  exact .around way fits rfl rfl

/-! ## Nodes apart from the edit -/

theorem Edit.Leaves.of_mem_preorder {inner : Node} (h : e.Leaves f node)
    (hinner : inner ∈ node.preorder) : e.Leaves f inner := by
  cases h with
  | front h => exact .front fun deeper hdeeper => h deeper (mem_preorder_trans hdeeper hinner)
  | behind h => exact .behind fun deeper hdeeper => h deeper (mem_preorder_trans hdeeper hinner)

theorem Edit.Leaves.child {child : Node} (h : e.Leaves f node) (hchild : child ∈ node.children) :
    e.Leaves f child :=
  h.of_mem_preorder (mem_preorder_of_child hchild (mem_preorder_self child))

theorem Edit.Leaves.not_overlaps (h : e.Leaves f node) : ¬ e.Overlaps node.span := by
  rintro ⟨hstart, hstop⟩
  cases h with
  | front h =>
    have := h node (mem_preorder_self node)
    omega
  | behind h =>
    have := h node (mem_preorder_self node)
    omega

theorem Edit.Around.overlaps {span : Span} (h : e.Around span) : e.Overlaps span := by
  obtain ⟨hstart, hstop⟩ := h
  have : e.span.start ≤ e.span.stop := Nat.le_add_right _ _
  exact ⟨hstop, by omega⟩

theorem Edit.Sound.not_leaves (sound : e.Sound) (h : e.site ∈ node.preorder) : ¬ e.Leaves f node :=
  fun leaves => (leaves.of_mem_preorder h).not_overlaps (Around.overlaps sound.around)

/-! ## Counterparts -/

theorem Edit.Apart.kind_eq (h : e.Apart old new) : new.kind = old.kind := by
  obtain ⟨f, -, rfl⟩ := h
  exact kind_mapSpans f old

theorem Edit.Apart.role_eq (h : e.Apart old new) : new.role = old.role := by
  obtain ⟨f, -, rfl⟩ := h
  exact role_mapSpans f old

theorem Edit.Counterpart.kind_eq (h : e.Counterpart old new) : new.kind = old.kind := by
  cases h with
  | apart h => exact h.kind_eq
  | around way _ hold hnew =>
    subst hold hnew
    cases way <;> rfl

theorem Edit.Counterpart.role_eq (h : e.Counterpart old new) : new.role = old.role := by
  cases h with
  | apart h => exact h.role_eq
  | around way _ hold hnew =>
    subst hold hnew
    cases way <;> rfl

theorem Edit.InFront.apart (h : e.InFront node) : e.Apart node node :=
  ⟨id, .front h, (mapSpans_id node).symm⟩

theorem Edit.Leaves.apart (h : e.Leaves f node) : e.Apart node (node.mapSpans f) :=
  ⟨f, h, rfl⟩

theorem Edit.Counterpart.way_of_site (sound : e.Sound) (h : e.Counterpart old new)
    (hsite : e.site ∈ old.preorder) :
    ∃ way, e.Fits way ∧ old = plug way e.site
      ∧ new = plug (way.map (Frame.edited e)) e.newSite := by
  cases h with
  | apart h =>
    obtain ⟨f, leaves, -⟩ := h
    exact absurd leaves (sound.not_leaves hsite)
  | around way fits hold hnew => exact ⟨way, fits, hold, hnew⟩

theorem Edit.Counterpart.apart_of_not_overlaps (sound : e.Sound) (h : e.Counterpart old new)
    (other : ¬ e.Overlaps old.span) : e.Apart old new := by
  cases h with
  | apart h => exact h
  | around way fits hold hnew =>
    subst hold
    cases way with
    | nil => exact absurd (Around.overlaps sound.around) other
    | cons frame way => exact absurd (Around.overlaps fits.1.around) other

theorem Edit.Counterpart.site_eq (sound : e.Sound) (h : e.Counterpart e.site new) :
    new = e.newSite := by
  obtain ⟨way, -, hold, rfl⟩ := h.way_of_site sound (mem_preorder_self _)
  cases way with
  | nil => rfl
  | cons frame way =>
    have hchild : plug way e.site ∈ (plug (frame :: way) e.site).children :=
      frame.mem_children_plug _
    rw [← hold] at hchild
    exact absurd (mem_preorder_plug way e.site) (not_mem_preorder_of_child hchild)

theorem Edit.site_not_mem_dropped (h : node ∈ preorders e.dropped) : e.site ∉ node.preorder := by
  intro hsite
  obtain ⟨tree, htree, h⟩ := mem_preorders.1 h
  have hchild : tree ∈ e.site.children := by simp [htree]
  exact not_mem_preorder_of_child hchild (mem_preorder_trans hsite h)

theorem Edit.Fits.child_eq (sound : e.Sound) {frame : Frame} {way : List Frame}
    (fits : e.Fits (frame :: way)) {child : Node}
    (hchild : child ∈ (plug (frame :: way) e.site).children) (hsite : e.site ∈ child.preorder) :
    child = plug way e.site := by
  rw [plug_cons, Frame.children_plug, List.mem_append, List.mem_cons] at hchild
  rcases hchild with hchild | hchild | hchild
  · exact absurd (.front (fits.1.front child hchild)) (sound.not_leaves hsite)
  · exact hchild
  · exact absurd (.behind (fits.1.behind child hchild)) (sound.not_leaves hsite)

theorem find?_rel {α β : Type} {R : α → β → Prop} {p : α → Bool} {q : β → Bool}
    (agree : ∀ a b, R a b → p a = q b) {as : List α} {bs : List β} (h : List.Forall₂ R as bs) :
    Option.Rel R (as.find? p) (bs.find? q) := by
  induction h with
  | nil => exact .none
  | @cons a b as bs hab _ ih =>
    rw [List.find?_cons, List.find?_cons, ← agree a b hab]
    cases p a with
    | true => exact .some hab
    | false => exact ih

theorem forall₂_apart_map {nodes : List Node} (h : ∀ node ∈ nodes, e.Leaves f node) :
    List.Forall₂ e.Apart nodes (nodes.map (mapSpans f)) :=
  List.forall₂_map_right_iff.2 (List.forall₂_same.2 fun node hnode => (h node hnode).apart)

theorem Edit.Apart.children (h : e.Apart old new) :
    List.Forall₂ e.Apart old.children new.children := by
  obtain ⟨f, leaves, rfl⟩ := h
  rw [children_mapSpans]
  exact forall₂_apart_map fun child hchild => leaves.child hchild

theorem Edit.Apart.child? (h : e.Apart old new) (role : Role) :
    Option.Rel e.Apart (old.child? role) (new.child? role) :=
  find?_rel (fun _ _ hchild => by rw [hchild.role_eq]) h.children

/-- The children of a frame on the way become the children of the frame in the new tree, and all but
the child on the way lie apart from the edit. -/
theorem Frame.Admits.children {frame : Frame} {role : Role} {R : Node → Node → Prop}
    (admits : frame.Admits e role) (apart : ∀ {node node'}, e.Apart node node' → R node node')
    (h : R old new) :
    List.Forall₂ R (frame.plug old).children ((frame.edited e).plug new).children :=
  List.rel_append (List.forall₂_same.2 fun node hnode => apart (admits.front node hnode).apart)
    (.cons h ((forall₂_apart_map fun node hnode => .behind (admits.behind node hnode)).imp
      fun _ _ => apart))

theorem Edit.Counterpart.children (h : e.Counterpart old new) (other : old ≠ e.site) :
    List.Forall₂ e.Counterpart old.children new.children := by
  cases h with
  | apart h => exact h.children.imp fun _ _ => .apart
  | around way fits hold hnew =>
    subst hold hnew
    cases way with
    | nil => exact absurd rfl other
    | cons frame way => exact fits.1.children .apart (.around way fits.2 rfl rfl)

theorem optionRel_cases {α β : Type} {R : α → β → Prop} {a : Option α} {b : Option β}
    (h : Option.Rel R a b) : (a = none ∧ b = none) ∨ ∃ x y, a = some x ∧ b = some y ∧ R x y := by
  cases h with
  | none => exact .inl ⟨rfl, rfl⟩
  | some h => exact .inr ⟨_, _, rfl, rfl, h⟩

theorem optionRel_imp {α β : Type} {R S : α → β → Prop} {a : Option α} {b : Option β}
    (h : Option.Rel R a b) (imp : ∀ x, a = some x → ∀ y, R x y → S x y) : Option.Rel S a b := by
  cases h with
  | none => exact .none
  | some h => exact .some (imp _ rfl _ h)

theorem Edit.Counterpart.child?_apart {role : Role} (h : e.Counterpart old new)
    (other : old ≠ e.site) (through : ∀ {frame : Frame} {way : List Frame}, e.Fits (frame :: way) →
      old = plug (frame :: way) e.site → (plug way e.site).role ≠ role) :
    Option.Rel e.Apart (old.child? role) (new.child? role) := by
  -- A child with the wanted part is not the one on the way.
  have rel : List.Forall₂ (fun child child' => child'.role = child.role ∧
      (child.role = role → e.Apart child child')) old.children new.children := by
    cases h with
    | apart h =>
      exact h.children.imp fun _ _ apart => ⟨apart.role_eq, fun _ => apart⟩
    | around way fits hold hnew =>
      subst hold hnew
      cases way with
      | nil => exact absurd rfl other
      | cons frame way =>
        refine fits.1.children (fun apart => ⟨apart.role_eq, fun _ => apart⟩) ?_
        exact ⟨(Counterpart.around way fits.2 rfl rfl).role_eq,
          fun same => absurd same (through fits rfl)⟩
  have found := find?_rel (p := fun child => child.role == role)
    (q := fun child => child.role == role) (fun _ _ hchild => by rw [hchild.1]) rel
  exact optionRel_imp found fun child hchild _ rel => rel.2 (role_of_child? hchild)

theorem Edit.Counterpart.child? (h : e.Counterpart old new) (other : old ≠ e.site) (role : Role) :
    Option.Rel e.Counterpart (old.child? role) (new.child? role) :=
  find?_rel (fun _ _ hchild => by rw [hchild.role_eq]) (h.children other)

theorem Edit.Counterpart.property_apart (h : e.Counterpart old new) (other : old ≠ e.site)
    (kind : old.kind = .memberExpression) :
    Option.Rel e.Apart (old.child? .property) (new.child? .property) :=
  h.child?_apart other fun fits hold => fits.1.property (by rw [← kind, hold]; rfl)

theorem Edit.Counterpart.name_apart (h : e.Counterpart old new) (other : old ≠ e.site)
    (kind : old.kind = .classDeclaration ∨ old.kind = .abstractClassDeclaration) :
    Option.Rel e.Apart (old.child? .name) (new.child? .name) :=
  h.child?_apart other fun fits hold => fits.1.name (by rw [hold] at kind; exact kind)

/-! ## Visits -/

/-- A visit and the one that it becomes. -/
structure Edit.VisitPair (e : Edit) (old new : Visit) : Prop where
  parent : Option.Rel e.Counterpart old.parent new.parent
  node : e.Counterpart old.node new.node

/-- The new visits are the old ones, but for the ones that go and the ones that come. -/
def Edit.Alike (e : Edit) (old new : List Visit) : Prop :=
  ∃ front gone back front' come back', old = front ++ (gone ++ back) ∧
    new = front' ++ (come ++ back') ∧
    List.Forall₂ e.VisitPair front front' ∧ List.Forall₂ e.VisitPair back back' ∧
    (∀ visit ∈ gone, visit.Below e.site e.dropped) ∧
    ∀ visit ∈ come, visit.Below e.newSite e.fresh

section

variable {xs ys xs' ys' : List Visit} {parent parent' : Option Node}

theorem Edit.Alike.of_forall₂ (h : List.Forall₂ e.VisitPair xs xs') : e.Alike xs xs' :=
  ⟨xs, [], [], xs', [], [], by simp, by simp, h, .nil, by simp, by simp⟩

theorem Edit.Alike.append (hfront : List.Forall₂ e.VisitPair xs xs') (h : e.Alike ys ys') :
    e.Alike (xs ++ ys) (xs' ++ ys') := by
  obtain ⟨front, gone, back, front', come, back', rfl, rfl, h, hback, hgone, hcome⟩ := h
  exact ⟨xs ++ front, gone, back, xs' ++ front', come, back', by simp, by simp,
    List.rel_append hfront h, hback, hgone, hcome⟩

theorem Edit.Alike.append_right (h : e.Alike xs xs') (hback : List.Forall₂ e.VisitPair ys ys') :
    e.Alike (xs ++ ys) (xs' ++ ys') := by
  obtain ⟨front, gone, back, front', come, back', rfl, rfl, hfront, h, hgone, hcome⟩ := h
  exact ⟨front, gone, back ++ ys, front', come, back' ++ ys', by simp, by simp, hfront,
    List.rel_append h hback, hgone, hcome⟩

theorem visitsBelow_rel {nodes : List Node} {g : Node → Node}
    (each : ∀ node ∈ nodes,
      List.Forall₂ e.VisitPair (visitsFrom (some old) node) (visitsFrom (some new) (g node))) :
    List.Forall₂ e.VisitPair (visitsBelow old nodes) (visitsBelow new (nodes.map g)) := by
  induction nodes with
  | nil => exact .nil
  | cons node nodes ih =>
    exact List.rel_append (each node List.mem_cons_self)
      (ih fun next hnext => each next (List.mem_cons_of_mem _ hnext))

/-- Apart from the edit, the visits of a tree become those of its counterpart. -/
theorem Edit.Leaves.visits (leaves : e.Leaves f node)
    (hparent : Option.Rel e.Counterpart parent parent') :
    List.Forall₂ e.VisitPair (visitsFrom parent node) (visitsFrom parent' (node.mapSpans f)) := by
  induction node using Node.induction generalizing parent parent' with
  | step node ih =>
    have whole : e.Counterpart node (node.mapSpans f) := .apart leaves.apart
    rw [visitsFrom_eq, visitsFrom_eq, children_mapSpans]
    exact .cons ⟨hparent, whole⟩ (visitsBelow_rel fun child hchild =>
      ih child hchild (leaves.child hchild) (.some whole))

theorem Edit.Counterpart.visits_front {nodes : List Node} (hparent : e.Counterpart old new)
    (front : ∀ node ∈ nodes, e.InFront node) :
    List.Forall₂ e.VisitPair (visitsBelow old nodes) (visitsBelow new nodes) := by
  have h : List.Forall₂ e.VisitPair (visitsBelow old nodes)
      (visitsBelow new (nodes.map (mapSpans id))) :=
    visitsBelow_rel fun node hnode => (Leaves.front (front node hnode)).visits (.some hparent)
  rwa [List.map_congr_left fun node _ => mapSpans_id node, List.map_id'] at h

theorem Edit.Counterpart.visits_behind {nodes : List Node} (hparent : e.Counterpart old new)
    (behind : ∀ node ∈ nodes, e.Behind node) :
    List.Forall₂ e.VisitPair (visitsBelow old nodes)
      (visitsBelow new (nodes.map (mapSpans e.move))) :=
  visitsBelow_rel fun node hnode => (Leaves.behind (behind node hnode)).visits (.some hparent)

/-- **The visits of a tree become those of its counterpart**, but for the children of the site that
go and that come. -/
theorem Edit.Counterpart.alike (sound : e.Sound) (h : e.Counterpart old new)
    (hparent : Option.Rel e.Counterpart parent parent') :
    e.Alike (visitsFrom parent old) (visitsFrom parent' new) := by
  cases h with
  | apart h =>
    obtain ⟨f, leaves, rfl⟩ := h
    exact .of_forall₂ (leaves.visits hparent)
  | around way fits hold hnew =>
    subst hold hnew
    induction way generalizing parent parent' with
    | nil =>
      have site : e.Counterpart e.site e.newSite := .around [] fits rfl rfl
      refine ⟨⟨parent, e.site⟩ :: visitsBelow e.site e.kept, visitsBelow e.site e.dropped, [],
        ⟨parent', e.newSite⟩ :: visitsBelow e.newSite e.kept, visitsBelow e.newSite e.fresh, [],
        ?_, ?_, ?_, .nil, ?_, ?_⟩
      · simp [visitsFrom_eq, visitsBelow_append]
      · simp [visitsFrom_eq, visitsBelow_append]
      · exact .cons ⟨hparent, site⟩ (site.visits_front sound.kept)
      · exact fun visit hvisit => below_of_mem_visitsBelow hvisit
      · exact fun visit hvisit => below_of_mem_visitsBelow hvisit
    | cons frame way ih =>
      have whole : e.Counterpart (plug (frame :: way) e.site)
          (plug ((frame :: way).map (Frame.edited e)) e.newSite) := .around _ fits rfl rfl
      obtain ⟨admits, fits⟩ := fits
      rw [visitsFrom_eq, visitsFrom_eq]
      simp only [plug_cons, List.map_cons, Frame.children_plug, visitsBelow_append, visitsBelow]
      refine .append (.cons ⟨hparent, whole⟩ (whole.visits_front admits.front)) ?_
      exact (ih (.some whole) fits).append_right (whole.visits_behind admits.behind)

/-- What is found at the visits becomes what is found at the new ones, if nothing is found at those
that go and that come. -/
theorem Edit.Alike.filterMap {α β : Type} {R : α → β → Prop} {g : Visit → Option α}
    {g' : Visit → Option β} (h : e.Alike xs xs')
    (agree : ∀ visit visit', e.VisitPair visit visit' → Option.Rel R (g visit) (g' visit'))
    (gone : ∀ visit ∈ xs, visit.Below e.site e.dropped → g visit = none)
    (come : ∀ visit, visit.Below e.newSite e.fresh → g' visit = none) :
    List.Forall₂ R (xs.filterMap g) (xs'.filterMap g') := by
  obtain ⟨front, hgone, back, front', hcome, back', rfl, rfl, hfront, hback, below, below'⟩ := h
  have none_gone : hgone.filterMap g = [] :=
    List.filterMap_eq_nil_iff.2 fun visit hvisit =>
      gone visit (by simp [hvisit]) (below visit hvisit)
  have none_come : hcome.filterMap g' = [] :=
    List.filterMap_eq_nil_iff.2 fun visit hvisit => come visit (below' visit hvisit)
  simp only [List.filterMap_append, none_gone, none_come, List.nil_append]
  exact List.rel_append (List.rel_filterMap (fun _ _ hpair => agree _ _ hpair) hfront)
    (List.rel_filterMap (fun _ _ hpair => agree _ _ hpair) hback)

end

/-- The nodes with a property become the nodes of the new tree with it, if no node that goes or
comes has it. -/
theorem Edit.Counterpart.filter_preorder {p q : Node → Bool} (sound : e.Sound)
    (h : e.Counterpart old new) (agree : ∀ node node', e.Counterpart node node' → p node = q node')
    (gone : ∀ node ∈ old.preorder, node ∈ preorders e.dropped → p node = false)
    (come : ∀ node ∈ preorders e.fresh, q node = false) :
    List.Forall₂ e.Counterpart (old.preorder.filter p) (new.preorder.filter q) := by
  have found (keep : Node → Bool) (node : Node) : node.preorder.filter keep
      = (visitsFrom none node).filterMap fun visit =>
          if keep visit.node then some visit.node else none := by
    rw [← map_node_visitsFrom none node]
    generalize visitsFrom none node = visits
    induction visits with
    | nil => rfl
    | cons visit visits ih => cases hkeep : keep visit.node <;> simp [hkeep, ih]
  rw [found, found]
  refine (h.alike sound .none).filterMap ?_ ?_ ?_
  · intro visit visit' hpair
    rw [agree _ _ hpair.node]
    split
    · exact .some hpair.node
    · exact .none
  · intro visit hvisit below
    have hin : visit.node ∈ old.preorder := by
      rw [← map_node_visitsFrom none old]
      exact List.mem_map_of_mem hvisit
    simp [gone visit.node hin below.1]
  · intro visit below
    simp [come visit.node below.1]

end

end RouteTrim.Tree
