import RouteTrim.Proofs.Route.Site
import RouteTrim.Route.Descriptor
import RouteTrim.Route.Extract

/-!
# The routes of an edited file

What a route annotation says is read from its own text. If no route annotation of a file overlaps
the part that is replaced, the edited file declares the same routes, or has the same fault.
-/

set_option autoImplicit false

namespace RouteTrim.Route

open RouteTrim.Settings (BuildConfig)
open RouteTrim.Tree

/-! ## Related results -/

/-- The same failure, or related values. -/
inductive ResultRel {α β : Type} (R : α → β → Prop) : Except Failure α → Except Failure β → Prop
  | error (failure : Failure) : ResultRel R (.error failure) (.error failure)
  | ok {a : α} {b : β} : R a b → ResultRel R (.ok a) (.ok b)

section

variable {α β γ : Type} {R : α → β → Prop}

theorem ResultRel.bind_eq {x : Except Failure α} {y : Except Failure β}
    {f : α → Except Failure γ} {g : β → Except Failure γ} (h : ResultRel R x y)
    (agree : ∀ a b, R a b → g b = f a) : y >>= g = x >>= f := by
  cases h with
  | error failure => rfl
  | ok h => exact agree _ _ h

theorem mapM_eq_of_forall₂ {as : List α} {bs : List β} {f : α → Except Failure γ}
    {g : β → Except Failure γ} (h : List.Forall₂ R as bs) (agree : ∀ a b, R a b → g b = f a) :
    bs.mapM g = as.mapM f := by
  induction h with
  | nil => rfl
  | cons h _ ih => rw [List.mapM_cons, List.mapM_cons, agree _ _ h, ih]

end

variable {e : Edit} {source source' : Source} {config : BuildConfig}

/-! ## Options -/

def OptionPair (e : Edit) (old new : String × Node) : Prop :=
  new.1 = old.1 ∧ e.Apart old.2 new.2

/-- What is found under a key is related if the options are, one by one. -/
theorem lookup_rel {R : Node → Node → Prop} {options options' : Options}
    (h : List.Forall₂ (fun old new => new.1 = old.1 ∧ R old.2 new.2) options options')
    (key : String) : Option.Rel R (options.lookup key) (options'.lookup key) := by
  induction h with
  | nil => exact .none
  | @cons first first' _ _ pair _ ih =>
    obtain ⟨name, value⟩ := first
    obtain ⟨name', value'⟩ := first'
    obtain ⟨hname, hvalue⟩ : name' = name ∧ R value value' := pair
    rw [hname, List.lookup_cons, List.lookup_cons]
    split
    · exact .some hvalue
    · exact ih

theorem distinctOptions_rel {className path : String} {properties properties' : List Property}
    (h : List.Forall₂ (PropertyPair e.Apart) properties properties') {options options' : Options}
    (hoptions : List.Forall₂ (OptionPair e) options options') :
    ResultRel (List.Forall₂ (OptionPair e)) (distinctOptions className path properties options)
      (distinctOptions className path properties' options') := by
  induction h generalizing options options' with
  | nil => exact .ok hoptions
  | @cons property property' _ _ pair _ ih =>
    unfold distinctOptions
    rw [pair.key]
    rcases optionRel_cases (lookup_rel hoptions property.key) with
      ⟨hold, hnew⟩ | ⟨_, _, hold, hnew, -⟩
    · rw [hold, hnew]
      exact ih (List.rel_append hoptions (.cons ⟨rfl, pair.value⟩ .nil))
    · rw [hold, hnew]
      exact .error _

theorem properties_apart (revises : e.Revises source source') {object object' : Node}
    (h : e.Apart object object') :
    List.Forall₂ (PropertyPair e.Apart) (source.properties object) (source'.properties object') := by
  rw [properties_eq, properties_eq]
  exact List.rel_filterMap (fun _ _ pair => property?_apart revises pair) h.children

/-- The options of an annotation apart from the edit become those of the edited file's. -/
theorem readOptions_rel (revises : e.Revises source source') {c c' : AnnotatedClass}
    (name : c'.className = c.className) (h : List.Forall₂ e.Apart c.arguments c'.arguments) :
    ResultRel (List.Forall₂ (OptionPair e)) (readOptions source c) (readOptions source' c') := by
  unfold readOptions
  rw [name, revises.path]
  generalize c.arguments = arguments at h
  generalize c'.arguments = arguments' at h
  cases h with
  | nil => exact .ok .nil
  | cons h rest =>
    cases rest with
    | nil =>
      dsimp only
      rw [h.kind_eq]
      split
      · exact distinctOptions_rel (properties_apart revises h) .nil
      · exact .error _
    | cons _ _ => exact .error _

theorem readText_apart (revises : e.Revises source source') (className option : String)
    {value value' : Node} (h : e.Apart value value') :
    readText source' className option value' = readText source className option value := by
  unfold readText
  rw [h.kind_eq, revises.path, literalText_apart revises h]

theorem readName_eq (revises : e.Revises source source') (className : String)
    {options options' : Options} (h : List.Forall₂ (OptionPair e) options options') :
    readName source' className options' = readName source className options := by
  unfold readName
  rcases optionRel_cases (lookup_rel h "name") with ⟨hold, hnew⟩ | ⟨_, _, hold, hnew, hvalue⟩
  · rw [hold, hnew]
  · rw [hold, hnew]
    exact readText_apart revises className "name" hvalue

theorem readSegment_eq (revises : e.Revises source source') (className : String)
    {options options' : Options} (h : List.Forall₂ (OptionPair e) options options') :
    readSegment source' className options' = readSegment source className options := by
  unfold readSegment
  rcases optionRel_cases (lookup_rel h "segment") with ⟨hold, hnew⟩ | ⟨_, _, hold, hnew, hvalue⟩
  · rw [hold, hnew]
  · rw [hold, hnew]
    dsimp only
    rw [hvalue.kind_eq, readText_apart revises className "segment" hvalue]

theorem readPriority_eq (revises : e.Revises source source') (className : String)
    {options options' : Options} (h : List.Forall₂ (OptionPair e) options options') :
    readPriority source' className options' = readPriority source className options := by
  unfold readPriority
  rcases optionRel_cases (lookup_rel h "priority") with ⟨hold, hnew⟩ | ⟨_, _, hold, hnew, hvalue⟩
  · rw [hold, hnew]
  · rw [hold, hnew]
    dsimp only
    rw [readText_apart revises className "priority" hvalue, revises.path]

theorem readHistoryElement_apart (revises : e.Revises source source') (className : String)
    {element element' : Node} (h : e.Apart element element') :
    readHistoryElement source' className element'
      = readHistoryElement source className element := by
  have stringLike : element'.isStringLike = element.isStringLike := by
    have pieces : (element'.children.any fun child => child.kind == .templateSubstitution)
        = element.children.any fun child => child.kind == .templateSubstitution := by
      have children := h.children
      generalize element.children = old at children
      generalize element'.children = new at children
      induction children with
      | nil => rfl
      | cons h _ ih => rw [List.any_cons, List.any_cons, h.kind_eq, ih]
    unfold Node.isStringLike
    rw [h.kind_eq, pieces]
  unfold readHistoryElement
  rw [stringLike, literalText_apart revises h, revises.textOf_apart h, revises.path]

theorem readHistory_eq (revises : e.Revises source source') (className : String)
    {options options' : Options} (h : List.Forall₂ (OptionPair e) options options') :
    readHistory source' className options' = readHistory source className options := by
  unfold readHistory
  rcases optionRel_cases (lookup_rel h "defaultHistory") with
    ⟨hold, hnew⟩ | ⟨_, _, hold, hnew, hvalue⟩
  · rw [hold, hnew]
  · rw [hold, hnew]
    dsimp only
    rw [hvalue.kind_eq, revises.path, mapM_eq_of_forall₂ hvalue.children fun _ _ element =>
      readHistoryElement_apart revises className element]

/-! ## Routes -/

/-- **A class whose annotations lie apart from the edit declares the same route.** -/
theorem readEntry_eq (revises : e.Revises source source') {c c' : AnnotatedClass}
    (pair : ClassPair e source source' c c')
    (apart : ∀ decoration ∈ c.decorations, ¬ e.Overlaps decoration.node.span) :
    readEntry source' c' = readEntry source c := by
  have sound := revises.turns.sound
  obtain ⟨arguments, declaration⟩ : List.Forall₂ e.Apart c.arguments c'.arguments ∧
      (c'.decorations.head?.map fun d => source'.textOf d.node)
        = c.decorations.head?.map fun d => source.textOf d.node := by
    have decorations := pair.decorations
    unfold AnnotatedClass.arguments
    cases hdecorations : c.decorations with
    | nil =>
      rw [hdecorations, List.forall₂_nil_left_iff] at decorations
      rw [decorations]
      exact ⟨.nil, rfl⟩
    | cons first rest =>
      rw [hdecorations, List.forall₂_cons_left_iff] at decorations
      obtain ⟨first', rest', hfirst, -, hdecorations'⟩ := decorations
      have node := hfirst.node.apart_of_not_overlaps sound (apart first (by simp [hdecorations]))
      rw [hdecorations']
      refine ⟨?_, congrArg some (revises.textOf_apart node)⟩
      show List.Forall₂ e.Apart first.arguments first'.arguments
      rw [hfirst.old_eq, hfirst.new_eq]
      exact arguments_ofDecorator_rel node.children (fun _ _ h => h.kind_eq) .nil
        fun _ _ h _ => h.callArguments
  unfold readEntry
  refine (readOptions_rel revises pair.className arguments).bind_eq fun options options' h => ?_
  rw [pair.className, readName_eq revises _ h, readSegment_eq revises _ h,
    readPriority_eq revises _ h, readHistory_eq revises _ h, declaration, revises.path]

/-- **An edited file declares the same routes**, if no route annotation overlaps the edit. -/
theorem entriesOf_edited (revises : e.Revises source source') (plain : e.Plain)
    (apart : ∀ c ∈ annotatedClasses source config.routeDecorator, ∀ decoration ∈ c.decorations,
      ¬ e.Overlaps decoration.node.span) :
    entriesOf source' config = entriesOf source config := by
  have sound := revises.turns.sound
  have classes := annotatedClasses_rel revises plain
    (gone_of_not_mem_dropped sound fun c hc decoration hdecoration gone =>
      apart c hc decoration hdecoration (sound.dropped _ gone))
  have count {c c' : AnnotatedClass} (pair : ClassPair e source source' c c') :
      c'.decorations.length = c.decorations.length := pair.decorations.length_eq.symm
  unfold entriesOf scan
  have repeated := find?_rel (p := fun c => decide (1 < c.decorations.length))
    (q := fun c => decide (1 < c.decorations.length)) (fun _ _ pair => by rw [count pair]) classes
  dsimp only
  rcases optionRel_cases repeated with ⟨hold, hnew⟩ | ⟨c, c', hold, hnew, pair⟩
  · rw [hold, hnew]
    show (annotatedClasses source' config.routeDecorator).mapM (readEntry source') = _
    refine mapM_eq_of_forall₂ (R := fun c c' => (∀ decoration ∈ c.decorations,
      ¬ e.Overlaps decoration.node.span) ∧ ClassPair e source source' c c')
      ((List.forall₂_and_left _ _).2 ⟨apart, classes⟩) ?_
    exact fun c c' ⟨apart, pair⟩ => readEntry_eq revises pair apart
  · rw [hold, hnew]
    dsimp only
    rw [pair.className, count pair, revises.path]
    rfl

theorem registrarOf_edited (revises : e.Revises source source')
    (classes : List.Forall₂ (ClassPair e source source')
      (annotatedClasses source config.registrarDecorator)
      (annotatedClasses source' config.registrarDecorator)) :
    Descriptor.registrarOf source' config = Descriptor.registrarOf source config := by
  unfold Descriptor.registrarOf
  rw [revises.path]
  generalize annotatedClasses source config.registrarDecorator = old at classes
  generalize annotatedClasses source' config.registrarDecorator = new at classes
  cases classes with
  | nil => rfl
  | cons pair rest =>
    cases rest with
    | nil => exact congrArg _ pair.className
    | cons _ rest => simp [rest.length_eq]

end RouteTrim.Route
