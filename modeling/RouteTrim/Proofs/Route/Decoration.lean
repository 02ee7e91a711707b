import RouteTrim.Proofs.Tree.Reading
import RouteTrim.Route.Decoration

/-!
# Annotated classes of an edited file

An edit that puts in nothing but plain literals makes no class, so the annotated classes of the
edited file are the old ones, without any that stood in the text that was replaced. A class keeps
its name, and its decorations keep theirs, also where the edit is made inside of them.
-/

set_option autoImplicit false

namespace RouteTrim.Route

open RouteTrim.Tree
open RouteTrim.Tree.Node (Visit)

variable {e : Edit} {source source' : Source}

/-! ## Decorations -/

theorem head?_rel {α β : Type} {R : α → β → Prop} {as : List α} {bs : List β}
    (h : List.Forall₂ R as bs) : Option.Rel R as.head? bs.head? := by
  cases h with
  | nil => exact .none
  | cons h _ => exact .some h

theorem node_ofDecorator (source : Source) (decorator : Node) :
    (Decoration.ofDecorator source decorator).node = decorator := by
  unfold Decoration.ofDecorator
  split
  · rfl
  · split <;> rfl

theorem name_ofDecorator {decorator decorator' : Node} (revises : e.Revises source source')
    (h : e.Counterpart decorator decorator') (kind : decorator.kind = .decorator) :
    (Decoration.ofDecorator source' decorator').name
      = (Decoration.ofDecorator source decorator).name := by
  have other : decorator ≠ e.site := revises.turns.sound.kind_ne (by decide) kind
  unfold Decoration.ofDecorator
  rcases optionRel_cases (head?_rel (h.children other)) with
    ⟨hold, hnew⟩ | ⟨expression, expression', hold, hnew, hexpression⟩
  · rw [hold, hnew]
  · rw [hold, hnew]
    simp only [hexpression.kind_eq]
    by_cases hcall : expression.kind = .callExpression
    · rw [if_pos (by simp [hcall]), if_pos (by simp [hcall]),
        revises.calleeName? hexpression hcall]
    · rw [if_neg (by simp [hcall]), if_neg (by simp [hcall]), revises.dottedName? hexpression]

/-- The arguments of two decorators are related as those of the calls in them are. -/
theorem arguments_ofDecorator_rel {decorator decorator' : Node} {R : Node → Node → Prop}
    {P : List Node → List Node → Prop}
    (children : List.Forall₂ R decorator.children decorator'.children)
    (kind : ∀ node node', R node node' → node'.kind = node.kind) (none : P [] [])
    (call : ∀ node node', R node node' → node.kind = .callExpression →
      P node.callArguments node'.callArguments) :
    P (Decoration.ofDecorator source decorator).arguments
      (Decoration.ofDecorator source' decorator').arguments := by
  unfold Decoration.ofDecorator
  rcases optionRel_cases (head?_rel children) with
    ⟨hold, hnew⟩ | ⟨expression, expression', hold, hnew, hexpression⟩
  · rw [hold, hnew]
    exact none
  · rw [hold, hnew]
    simp only [kind _ _ hexpression]
    by_cases hcall : expression.kind = .callExpression
    · rw [if_pos (by simp [hcall]), if_pos (by simp [hcall])]
      exact call _ _ hexpression hcall
    · rw [if_neg (by simp [hcall]), if_neg (by simp [hcall])]
      exact none

/-- The arguments of a decorator become those of its counterpart, unless the edit is made among
them. -/
theorem arguments_ofDecorator {decorator decorator' : Node} (sound : e.Sound)
    (h : e.Counterpart decorator decorator') (kind : decorator.kind = .decorator) :
    (Decoration.ofDecorator source decorator).arguments = e.site.children ∨
      List.Forall₂ e.Counterpart (Decoration.ofDecorator source decorator).arguments
        (Decoration.ofDecorator source' decorator').arguments :=
  arguments_ofDecorator_rel (P := fun old new => old = e.site.children ∨
      List.Forall₂ e.Counterpart old new) (h.children (sound.kind_ne (by decide) kind))
    (fun _ _ pair => pair.kind_eq) (.inr .nil) fun _ _ pair => pair.callArguments sound

theorem mem_preorder_of_argument {decorator argument : Node}
    (h : argument ∈ (Decoration.ofDecorator source decorator).arguments) :
    argument ∈ decorator.preorder := by
  unfold Decoration.ofDecorator at h
  cases hhead : decorator.children.head? with
  | none => rw [hhead] at h; exact absurd h (by simp)
  | some expression =>
    rw [hhead] at h
    have hchild : expression ∈ decorator.children := List.mem_of_head? hhead
    by_cases hcall : expression.kind = .callExpression
    · simp only [hcall, beq_self_eq_true, if_true] at h
      unfold Node.callArguments at h
      cases hlist : expression.child? .arguments with
      | none => rw [hlist] at h; exact absurd h (by simp)
      | some list =>
        simp only [hlist] at h
        split at h
        · exact Node.mem_preorder_of_child hchild
            (Node.mem_preorder_of_child (Node.mem_children_of_child? hlist)
              (Node.mem_preorder_of_child h (Node.mem_preorder_self argument)))
        · exact absurd h (by simp)
    · simp [hcall] at h

/-- A decoration and the one that it becomes. -/
structure DecorationPair (e : Edit) (source source' : Source) (old new : Decoration) : Prop where
  kind : old.node.kind = .decorator
  old_eq : old = .ofDecorator source old.node
  new_eq : new = .ofDecorator source' new.node
  node : e.Counterpart old.node new.node

/-! ## Classes -/

def annotatedClass? (source : Source) (wanted : String) (visit : Visit) : Option AnnotatedClass :=
  if isClassDeclaration visit.node.kind then
    let found := ((decoratorsOf visit).map (Decoration.ofDecorator source)).filter fun a =>
      nameMatches (some a.name) wanted
    if found.isEmpty then none
    else some ⟨className source visit.node, source.path, visit.node, found⟩
  else none

theorem annotatedClasses_eq (wanted : String) : annotatedClasses source wanted
    = source.root.visits.filterMap (annotatedClass? source wanted) := rfl

/-- An annotated class and the one that it becomes. -/
structure ClassPair (e : Edit) (source source' : Source) (old new : AnnotatedClass) : Prop where
  className : new.className = old.className
  filePath : new.filePath = old.filePath
  decorations : List.Forall₂ (DecorationPair e source source') old.decorations new.decorations

theorem isClassDeclaration_iff {kind : Kind} : isClassDeclaration kind = true ↔
    kind = .classDeclaration ∨ kind = .abstractClassDeclaration := by
  simp [isClassDeclaration]

theorem class_ne_site (sound : e.Sound) {node : Node}
    (h : isClassDeclaration node.kind = true) : node ≠ e.site := by
  rcases isClassDeclaration_iff.1 h with h | h <;> exact sound.kind_ne (by decide) h

theorem annotatedClass?_eq_some {wanted : String} {visit : Visit} {c : AnnotatedClass}
    (h : annotatedClass? source wanted visit = some c) :
    isClassDeclaration visit.node.kind = true ∧ c.decorations ≠ [] ∧
      ∀ decoration ∈ c.decorations, nameMatches (some decoration.name) wanted = true ∧
        ∃ decorator ∈ decoratorsOf visit, decoration = .ofDecorator source decorator := by
  unfold annotatedClass? at h
  split at h
  · next hkind =>
    dsimp only at h
    split at h
    · exact absurd h (by simp)
    · next hfound =>
      obtain rfl := Option.some.inj h
      refine ⟨hkind, fun empty => hfound (List.isEmpty_iff.2 empty), fun decoration hin => ?_⟩
      obtain ⟨hin, hname⟩ := List.mem_filter.1 hin
      obtain ⟨decorator, hdecorator, rfl⟩ := List.mem_map.1 hin
      exact ⟨hname, decorator, hdecorator, rfl⟩
  · exact absurd h (by simp)

theorem forall₂_decoratorsIn {node node' : Node} (h : e.Counterpart node node')
    (other : node ≠ e.site) :
    List.Forall₂ (fun old new => old.kind = .decorator ∧ e.Counterpart old new)
      (decoratorsIn node) (decoratorsIn node') := by
  have filtered : List.Forall₂ e.Counterpart (decoratorsIn node) (decoratorsIn node') :=
    List.rel_filter (fun _ _ hchild => by dsimp only; rw [hchild.kind_eq]) (h.children other)
  have decorators : ∀ child ∈ decoratorsIn node, child.kind = .decorator := fun child hchild => by
    simpa using (List.mem_filter.1 hchild).2
  exact (List.forall₂_and_left _ _).2 ⟨decorators, filtered⟩

theorem forall₂_decoratorsOf {visit visit' : Visit} (sound : e.Sound)
    (h : e.VisitPair visit visit') (hclass : isClassDeclaration visit.node.kind = true) :
    List.Forall₂ (fun old new => old.kind = .decorator ∧ e.Counterpart old new)
      (decoratorsOf visit) (decoratorsOf visit') := by
  refine List.rel_append ?_ (forall₂_decoratorsIn h.node (class_ne_site sound hclass))
  rcases optionRel_cases h.parent with ⟨hold, hnew⟩ | ⟨parent, parent', hold, hnew, hparent⟩
  · rw [hold, hnew]
    exact .nil
  · rw [hold, hnew]
    simp only [hparent.kind_eq]
    by_cases hexport : parent.kind = .exportStatement
    · rw [if_pos (by simp [hexport]), if_pos (by simp [hexport])]
      exact forall₂_decoratorsIn hparent (sound.kind_ne (by decide) hexport)
    · rw [if_neg (by simp [hexport]), if_neg (by simp [hexport])]
      exact .nil

/-- A class is called the same in the edited file. -/
theorem className_eq {node node' : Node} (revises : e.Revises source source')
    (h : e.Counterpart node node') (hclass : isClassDeclaration node.kind = true) :
    className source' node' = className source node := by
  have name := h.name_apart (class_ne_site revises.turns.sound hclass) (isClassDeclaration_iff.1 hclass)
  unfold className
  rcases optionRel_cases name with ⟨hold, hnew⟩ | ⟨name, name', hold, hnew, hname⟩
  · rw [hold, hnew]
  · rw [hold, hnew]
    exact revises.textOf_apart hname

/-- **An annotated class stays one.** -/
theorem annotatedClass?_rel (revises : e.Revises source source') (wanted : String)
    {visit visit' : Visit} (h : e.VisitPair visit visit') :
    Option.Rel (ClassPair e source source') (annotatedClass? source wanted visit)
      (annotatedClass? source' wanted visit') := by
  unfold annotatedClass?
  rw [h.node.kind_eq]
  split
  · next hclass =>
    have decorators := forall₂_decoratorsOf revises.turns.sound h hclass
    have decorations : List.Forall₂ (DecorationPair e source source')
        ((decoratorsOf visit).map (Decoration.ofDecorator source))
        ((decoratorsOf visit').map (Decoration.ofDecorator source')) := by
      refine List.rel_map ?_ decorators
      rintro decorator decorator' ⟨kind, pair⟩
      exact ⟨by rw [node_ofDecorator, kind], by rw [node_ofDecorator], by rw [node_ofDecorator],
        by rwa [node_ofDecorator, node_ofDecorator]⟩
    have found : List.Forall₂ (DecorationPair e source source')
        (((decoratorsOf visit).map (Decoration.ofDecorator source)).filter fun a =>
          nameMatches (some a.name) wanted)
        (((decoratorsOf visit').map (Decoration.ofDecorator source')).filter fun a =>
          nameMatches (some a.name) wanted) := by
      refine List.rel_filter (fun decoration decoration' pair => ?_) decorations
      dsimp only
      rw [pair.old_eq, pair.new_eq, name_ofDecorator revises pair.node pair.kind]
    dsimp only
    cases hfound : ((decoratorsOf visit).map (Decoration.ofDecorator source)).filter fun a =>
        nameMatches (some a.name) wanted with
    | nil =>
      rw [hfound, List.forall₂_nil_left_iff] at found
      rw [found]
      exact .none
    | cons first rest =>
      rw [hfound] at found
      cases hfound' : ((decoratorsOf visit').map (Decoration.ofDecorator source')).filter fun a =>
          nameMatches (some a.name) wanted with
      | nil => rw [hfound'] at found; exact absurd found (by simp)
      | cons first' rest' =>
        rw [hfound'] at found
        exact .some ⟨className_eq revises h.node hclass, revises.path, found⟩
  · exact .none

/-- **The annotated classes of the edited file are the old ones**, if none stood in what was
replaced. -/
theorem annotatedClasses_rel (revises : e.Revises source source') (plain : e.Plain)
    {wanted : String} (gone : ∀ visit ∈ source.root.visits, visit.Below e.site e.dropped →
      annotatedClass? source wanted visit = none) :
    List.Forall₂ (ClassPair e source source') (annotatedClasses source wanted)
      (annotatedClasses source' wanted) := by
  rw [annotatedClasses_eq, annotatedClasses_eq]
  rw [Node.visits_eq] at gone ⊢
  rw [Node.visits_eq]
  refine (revises.turns.counterpart.alike revises.turns.sound .none).filterMap
    (fun _ _ => annotatedClass?_rel revises wanted) gone fun visit below => ?_
  unfold annotatedClass?
  rw [if_neg]
  intro hclass
  have other : ∀ kind ∈ plainKinds, isClassDeclaration kind = false := by decide
  rw [other _ (plain.kind below.1)] at hclass
  exact absurd hclass (by simp)

theorem decoration_mem_dropped {wanted : String} {visit : Visit} {c : AnnotatedClass}
    (sound : e.Sound) (below : visit.Below e.site e.dropped)
    (h : annotatedClass? source wanted visit = some c) {decoration : Decoration}
    (hdecoration : decoration ∈ c.decorations) :
    decoration = .ofDecorator source decoration.node ∧
      decoration.node ∈ Node.preorders e.dropped := by
  obtain ⟨-, -, decorators⟩ := annotatedClass?_eq_some h
  obtain ⟨-, decorator, hdecorator, rfl⟩ := decorators decoration hdecoration
  rw [node_ofDecorator]
  refine ⟨rfl, ?_⟩
  have child {outer : Node} (houter : outer ∈ Node.preorders e.dropped)
      (h : decorator ∈ decoratorsIn outer) : decorator ∈ Node.preorders e.dropped := by
    obtain ⟨tree, htree, houter⟩ := Node.mem_preorders.1 houter
    have hchild := (List.mem_filter.1 h).1
    exact Node.mem_preorders.2 ⟨tree, htree, Node.mem_preorder_trans
      (Node.mem_preorder_of_child hchild (Node.mem_preorder_self _)) houter⟩
  rcases List.mem_append.1 hdecorator with hdecorator | hdecorator
  · rcases below.2 with hparent | ⟨outer, houter, hparent⟩
    · simp only [hparent] at hdecorator
      split at hdecorator
      · next hkind =>
        exact absurd rfl (sound.kind_ne (by decide) (beq_iff_eq.1 hkind))
      · exact absurd hdecorator (by simp)
    · simp only [hparent] at hdecorator
      split at hdecorator
      · exact child houter hdecorator
      · exact absurd hdecorator (by simp)
  · exact child below.1 hdecorator

/-- No class of the replaced text is annotated, if no annotation stands in it. -/
theorem gone_of_not_mem_dropped (sound : e.Sound) {wanted : String}
    (apart : ∀ c ∈ annotatedClasses source wanted, ∀ decoration ∈ c.decorations,
      decoration.node ∉ Node.preorders e.dropped) :
    ∀ visit ∈ source.root.visits, visit.Below e.site e.dropped →
      annotatedClass? source wanted visit = none := by
  intro visit hvisit below
  cases hclass : annotatedClass? source wanted visit with
  | none => rfl
  | some c =>
    obtain ⟨-, some_, -⟩ := annotatedClass?_eq_some hclass
    obtain ⟨decoration, hdecoration⟩ := List.exists_mem_of_ne_nil _ some_
    have hc : c ∈ annotatedClasses source wanted := List.mem_filterMap.2 ⟨visit, hvisit, hclass⟩
    exact absurd (decoration_mem_dropped sound below hclass hdecoration).2
      (apart c hc decoration hdecoration)

/-! ## The path of a file -/

theorem ofDecorator_congr (text : source'.text = source.text) (decorator : Node) :
    Decoration.ofDecorator source' decorator = Decoration.ofDecorator source decorator := by
  have dotted : source'.dottedName? = source.dottedName? :=
    funext (Source.dottedName?_congr text)
  unfold Decoration.ofDecorator Source.calleeName?
  rw [dotted]

theorem annotatedClasses_ofText [Parser] (content path path' wanted : String) :
    annotatedClasses (.ofText content path') wanted
      = (annotatedClasses (.ofText content path) wanted).map fun c =>
          { c with filePath := path' } := by
  rw [annotatedClasses_eq, annotatedClasses_eq, List.map_filterMap]
  refine List.filterMap_congr fun visit _ => ?_
  have decorators : Decoration.ofDecorator (.ofText content path')
      = Decoration.ofDecorator (.ofText content path) := funext (ofDecorator_congr rfl)
  unfold annotatedClass?
  rw [decorators]
  split
  · dsimp only
    split <;> rfl
  · rfl

end RouteTrim.Route
