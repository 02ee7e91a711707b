import RouteTrim.Proofs.Failure
import RouteTrim.Proofs.Route.Decoration
import RouteTrim.Proofs.Route.Value
import RouteTrim.Route.Site

/-!
# The registration site of an edited file

The site is found by three searches, each for exactly one thing. If the call that is found is the
one in whose argument list a file is edited, then the same call is found in the edited file: each
search meets the counterparts of what it met before. A class in the text that goes cannot add to
what is found, because the annotation that is found has the site in it; one in the text that comes
cannot, because plain literals have no classes and no calls.
-/

set_option autoImplicit false

namespace RouteTrim.Route

open RouteTrim.Settings (BuildConfig)
open RouteTrim.Tree

variable {e : Edit} {source source' : Source} {config : BuildConfig}

/-! ## What is found -/

section

variable {α β : Type}

theorem ite_eq_ok {found : Bool} {a b : α} {failure : Failure} :
    (if found then return a else throw failure : Except Failure α) = .ok b
      ↔ found = true ∧ a = b := by
  cases found <;> simp [pure, Except.pure, throw, throwThe, MonadExceptOf.throw]

theorem exactlyOne_eq_ok {what path : String} {found : List α} {a : α} :
    exactlyOne what path found = .ok a ↔ found = [a] := by
  unfold exactlyOne
  split
  · simp
  · next other => exact ⟨fun h => (nomatch h), fun h => absurd h (other a)⟩

end

theorem registrarOptions_eq_ok {options : Node} :
    registrarOptions source config = .ok options ↔ ∃ decoration rest,
      (annotatedClasses source config.registrarDecorator).flatMap AnnotatedClass.decorations
        = [decoration] ∧
      decoration.arguments = options :: rest ∧ options.kind = .object := by
  unfold registrarOptions
  simp only [bind_eq_ok, exactlyOne_eq_ok]
  refine exists_congr fun decoration => ?_
  cases decoration.arguments with
  | nil => simp [throw, throwThe, MonadExceptOf.throw]
  | cons first rest =>
    simp only [ite_eq_ok]
    simp only [beq_iff_eq, List.cons.injEq]
    constructor
    · rintro ⟨hfound, hkind, rfl⟩
      exact ⟨rest, hfound, ⟨rfl, rfl⟩, hkind⟩
    · rintro ⟨rest, hfound, ⟨rfl, rfl⟩, hkind⟩
      exact ⟨hfound, hkind, rfl⟩

theorem importsArray_eq_ok {options imports : Node} :
    importsArray source config options = .ok imports ↔ ∃ property,
      (source.properties options).filter (fun property => property.key == "imports") = [property] ∧
      property.value = imports ∧ imports.kind = .array := by
  unfold importsArray
  simp only [bind_eq_ok, exactlyOne_eq_ok, ite_eq_ok]
  simp only [beq_iff_eq]
  refine exists_congr fun property => and_congr_right fun _ => ?_
  constructor
  · rintro ⟨hkind, rfl⟩
    exact ⟨rfl, hkind⟩
  · rintro ⟨rfl, hkind⟩
    exact ⟨hkind, rfl⟩

theorem rootMethodCall_eq_ok {call : Node} :
    rootMethodCall source config = .ok call ↔ ∃ options imports,
      registrarOptions source config = .ok options ∧
      importsArray source config options = .ok imports ∧
      rootMethodCalls source config imports = [call] := by
  unfold rootMethodCall
  simp only [bind_eq_ok, exactlyOne_eq_ok]
  constructor
  · rintro ⟨options, hoptions, imports, himports, hcall⟩
    exact ⟨options, imports, hoptions, himports, hcall⟩
  · rintro ⟨options, imports, hoptions, himports, hcall⟩
    exact ⟨options, hoptions, imports, himports, hcall⟩

/-! ## Options -/

/-- No registrar annotation stands in the text that goes, if the edit is made in the options of the
one that is found. -/
theorem registrar_not_mem_dropped {options : Node}
    (h : registrarOptions source config = .ok options) (hsite : e.site ∈ options.preorder) :
    ∀ c ∈ annotatedClasses source config.registrarDecorator, ∀ decoration ∈ c.decorations,
      decoration.node ∉ Node.preorders e.dropped := by
  obtain ⟨found, rest, hfound, harguments, -⟩ := registrarOptions_eq_ok.1 h
  intro c hc decoration hdecoration gone
  obtain ⟨visit, -, hvisit⟩ := List.mem_filterMap.1 hc
  obtain ⟨-, -, decorators⟩ := annotatedClass?_eq_some hvisit
  obtain ⟨-, decorator, -, rfl⟩ := decorators decoration hdecoration
  have one : Decoration.ofDecorator source decorator = found := by
    rw [← List.mem_singleton, ← hfound]
    exact List.mem_flatMap.2 ⟨c, hc, hdecoration⟩
  have hoptions : options ∈ (Decoration.ofDecorator source decorator).arguments := by
    simp [one, harguments]
  rw [node_ofDecorator] at gone
  exact Edit.site_not_mem_dropped gone
    (Node.mem_preorder_trans hsite (mem_preorder_of_argument hoptions))

/-- **The options of the registrar annotation become those of the edited file's**, if the edit is
made in them. -/
theorem registrarOptions_rel (revises : e.Revises source source') (plain : e.Plain) {options : Node}
    (h : registrarOptions source config = .ok options) (hsite : e.site ∈ options.preorder) :
    ∃ options', registrarOptions source' config = .ok options' ∧
      e.Counterpart options options' := by
  have sound := revises.turns.sound
  have classes := annotatedClasses_rel revises plain
    (gone_of_not_mem_dropped sound (registrar_not_mem_dropped h hsite))
  have decorations : List.Forall₂ (DecorationPair e source source')
      ((annotatedClasses source config.registrarDecorator).flatMap AnnotatedClass.decorations)
      ((annotatedClasses source' config.registrarDecorator).flatMap AnnotatedClass.decorations) :=
    List.rel_flatMap classes fun _ _ pair => pair.decorations
  obtain ⟨decoration, rest, hfound, harguments, hkind⟩ := registrarOptions_eq_ok.1 h
  rw [hfound, List.forall₂_cons_left_iff] at decorations
  obtain ⟨decoration', none, pair, hnone, hfound'⟩ := decorations
  rw [List.forall₂_nil_left_iff] at hnone
  subst hnone
  have arguments : decoration.arguments = e.site.children ∨
      List.Forall₂ e.Counterpart decoration.arguments decoration'.arguments := by
    rw [pair.old_eq, pair.new_eq]
    exact arguments_ofDecorator sound pair.node pair.kind
  rcases arguments with own | arguments
  · have hoptions : options ∈ e.site.children := by simp [← own, harguments]
    exact absurd hsite (Node.not_mem_preorder_of_child hoptions)
  · rw [harguments, List.forall₂_cons_left_iff] at arguments
    obtain ⟨options', rest', hpair, -, harguments'⟩ := arguments
    exact ⟨options', registrarOptions_eq_ok.2 ⟨decoration', rest', hfound', harguments',
      hpair.kind_eq.trans hkind⟩, hpair⟩

/-! ## Properties -/

/-- A property and the one that it becomes, with values in a relation. -/
structure PropertyPair (R : Node → Node → Prop) (old new : Property) : Prop where
  key : new.key = old.key
  value : R old.value new.value

theorem literalText_apart (revises : e.Revises source source') {node node' : Node}
    (h : e.Apart node node') : source'.literalText node' = source.literalText node := by
  rw [Source.literalText, Source.literalText, revises.slice_apart h]

theorem propertyKey_apart (revises : e.Revises source source') {key key' : Node}
    (h : e.Apart key key') : source'.propertyKey key' = source.propertyKey key := by
  unfold Source.propertyKey
  rw [h.kind_eq, literalText_apart revises h, revises.textOf_apart h]

theorem property?_eq_some {member : Node} {property : Property}
    (h : property? source member = some property) :
    (member.kind = .pair ∧ member.child? .value = some property.value) ∨
      (member.kind = .shorthandProperty ∧ property.value = member) := by
  unfold property? at h
  split at h
  · next hkind =>
    obtain ⟨key, -, h⟩ := Option.bind_eq_some_iff.1 h
    obtain ⟨value, hvalue, h⟩ := Option.bind_eq_some_iff.1 h
    obtain rfl := Option.some.inj h
    exact .inl ⟨hkind, hvalue⟩
  · next hkind =>
    obtain rfl := Option.some.inj h
    exact .inr ⟨hkind, rfl⟩
  · exact absurd h (by simp)

theorem mem_preorder_value {member : Node} {property : Property}
    (h : property? source member = some property) : property.value ∈ member.preorder := by
  rcases property?_eq_some h with ⟨-, hvalue⟩ | ⟨-, hvalue⟩
  · exact Node.mem_preorder_of_child (Node.mem_children_of_child? hvalue)
      (Node.mem_preorder_self _)
  · rw [hvalue]
    exact Node.mem_preorder_self _

theorem property?_pair {R : Node → Node → Prop} (revises : e.Revises source source')
    {member member' : Node} (hkind : member.kind = .pair) (hkind' : member'.kind = .pair)
    (key : Option.Rel e.Apart (member.child? .key) (member'.child? .key))
    (value : Option.Rel R (member.child? .value) (member'.child? .value)) :
    Option.Rel (PropertyPair R) (property? source member) (property? source' member') := by
  unfold property?
  rw [hkind, hkind']
  rcases optionRel_cases key with ⟨hold, hnew⟩ | ⟨key, key', hold, hnew, hkey⟩
  · rw [hold, hnew]
    exact .none
  · rw [hold, hnew]
    rcases optionRel_cases value with ⟨hold, hnew⟩ | ⟨value, value', hold, hnew, hvalue⟩
    · rw [hold, hnew]
      exact .none
    · rw [hold, hnew]
      exact .some ⟨propertyKey_apart revises hkey, hvalue⟩

theorem property?_apart (revises : e.Revises source source') {member member' : Node}
    (h : e.Apart member member') :
    Option.Rel (PropertyPair e.Apart) (property? source member) (property? source' member') := by
  by_cases hpair : member.kind = .pair
  · exact property?_pair revises hpair (h.kind_eq.trans hpair) (h.child? .key) (h.child? .value)
  · unfold property?
    rw [h.kind_eq]
    by_cases hshorthand : member.kind = .shorthandProperty
    · rw [hshorthand]
      exact .some ⟨revises.textOf_apart h, h⟩
    · split
      · contradiction
      · contradiction
      · exact .none

theorem property?_site (revises : e.Revises source source') {member member' : Node}
    {property : Property} (h : e.Counterpart member member')
    (hproperty : property? source member = some property) (array : property.value.kind = .array)
    (hsite : e.site ∈ property.value.preorder) :
    Option.Rel (PropertyPair e.Counterpart) (property? source member)
      (property? source' member') := by
  obtain ⟨hkind, hvalue⟩ : member.kind = .pair ∧ member.child? .value = some property.value := by
    rcases property?_eq_some hproperty with hpair | ⟨hkind, hvalue⟩
    · exact hpair
    · rw [hvalue, hkind] at array
      exact absurd array (by decide)
  have other : member ≠ e.site := revises.turns.sound.kind_ne (by decide) hkind
  refine property?_pair revises hkind (h.kind_eq.trans hkind)
    (h.child?_apart other fun fits hold => ?_) (h.child? other .value)
  -- The child on the way is the value, so the key lies apart.
  rw [← fits.child_eq revises.turns.sound (hold ▸ Node.mem_children_of_child? hvalue) hsite,
    Node.role_of_child? hvalue]
  decide

/-- The properties of an object become those of its counterpart, if the edit is made in the value of
one. -/
theorem properties_rel (revises : e.Revises source source') {object object' : Node}
    (h : e.Counterpart object object') {property : Property}
    (hproperty : property ∈ source.properties object) (array : property.value.kind = .array)
    (hsite : e.site ∈ property.value.preorder) :
    List.Forall₂ (PropertyPair e.Counterpart) (source.properties object)
      (source'.properties object') := by
  rw [properties_eq] at hproperty
  obtain ⟨member, hmember, hproperty⟩ := List.mem_filterMap.1 hproperty
  have hin : e.site ∈ member.preorder :=
    Node.mem_preorder_trans hsite (mem_preorder_value hproperty)
  obtain ⟨way, fits, rfl, rfl⟩ := h.way_of_site revises.turns.sound
    (Node.mem_preorder_of_child hmember hin)
  cases way with
  | nil => exact absurd hin (Node.not_mem_preorder_of_child hmember)
  | cons frame way =>
    rw [properties_eq, properties_eq]
    refine List.rel_filterMap (R := fun member member' =>
      Option.Rel (PropertyPair e.Counterpart) (property? source member) (property? source' member'))
      (fun _ _ h => h) (fits.1.children (fun apart => optionRel_imp (property?_apart revises apart)
        fun _ _ _ pair => ⟨pair.key, .apart pair.value⟩) ?_)
    obtain rfl := fits.child_eq revises.turns.sound hmember hin
    exact property?_site revises (.around way fits.2 rfl rfl) hproperty array hsite

/-- **The array of imports becomes that of the edited file**, if the edit is made in it. -/
theorem importsArray_rel (revises : e.Revises source source') {options options' imports : Node}
    (h : e.Counterpart options options')
    (himports : importsArray source config options = .ok imports)
    (hsite : e.site ∈ imports.preorder) :
    ∃ imports', importsArray source' config options' = .ok imports' ∧
      e.Counterpart imports imports' := by
  obtain ⟨property, hfound, rfl, hkind⟩ := importsArray_eq_ok.1 himports
  have hproperty : property ∈ source.properties options := by
    have hmem : property ∈ [property] := List.mem_singleton_self _
    rw [← hfound] at hmem
    exact (List.mem_filter.1 hmem).1
  have filtered : List.Forall₂ (PropertyPair e.Counterpart)
      ((source.properties options).filter fun property => property.key == "imports")
      ((source'.properties options').filter fun property => property.key == "imports") :=
    List.rel_filter (fun _ _ pair => by dsimp only; rw [pair.key])
      (properties_rel revises h hproperty hkind hsite)
  rw [hfound, List.forall₂_cons_left_iff] at filtered
  obtain ⟨property', none, pair, hnone, hfound'⟩ := filtered
  rw [List.forall₂_nil_left_iff] at hnone
  subst hnone
  exact ⟨property'.value, importsArray_eq_ok.2 ⟨property', hfound', rfl,
    pair.value.kind_eq.trans hkind⟩, pair.value⟩

/-! ## Calls -/

theorem rootMethodCalls_eq (node : Node) : rootMethodCalls source config node
    = node.preorder.filter fun call => call.kind == .callExpression &&
        nameMatches (source.calleeName? call) config.rootMethodName := by
  rw [rootMethodCalls, Node.calls_eq, Node.walkKinds, Node.walk_eq, List.filter_filter]
  exact List.filter_congr fun call _ => Bool.and_comm ..

/-- The one call of the root method below a node becomes that of the edited file, if the edit is
made in it. -/
theorem rootMethodCalls_rel (revises : e.Revises source source') (plain : e.Plain)
    {node node' call : Node} (h : e.Counterpart node node')
    (hcall : rootMethodCalls source config node = [call]) (hsite : e.site ∈ call.preorder) :
    ∃ call', rootMethodCalls source' config node' = [call'] ∧ e.Counterpart call call' := by
  have calls : List.Forall₂ e.Counterpart (rootMethodCalls source config node)
      (rootMethodCalls source' config node') := by
    rw [rootMethodCalls_eq] at hcall
    rw [rootMethodCalls_eq, rootMethodCalls_eq]
    refine h.filter_preorder revises.turns.sound ?_ ?_ ?_
    · intro other other' pair
      rw [pair.kind_eq]
      by_cases hkind : other.kind = .callExpression
      · rw [revises.calleeName? pair hkind]
      · rw [beq_false_of_ne hkind, Bool.false_and, Bool.false_and]
    · intro other hother gone
      refine Bool.eq_false_iff.2 fun found => ?_
      have hmem : other = call := by
        rw [← List.mem_singleton, ← hcall]
        exact List.mem_filter.2 ⟨hother, found⟩
      subst hmem
      exact absurd hsite (Edit.site_not_mem_dropped gone)
    · intro other come
      have noCall : ∀ kind ∈ plainKinds, (kind == .callExpression) = false := by decide
      rw [noCall _ (plain.kind come), Bool.false_and]
  rw [hcall, List.forall₂_cons_left_iff] at calls
  obtain ⟨call', none, pair, hnone, hcall'⟩ := calls
  rw [List.forall₂_nil_left_iff] at hnone
  subst hnone
  exact ⟨call', hcall', pair⟩

theorem imports_mem_options {options imports : Node}
    (h : importsArray source config options = .ok imports) : imports ∈ options.preorder := by
  obtain ⟨property, hfound, rfl, -⟩ := importsArray_eq_ok.1 h
  have hmem : property ∈ [property] := List.mem_singleton_self _
  rw [← hfound] at hmem
  have hproperty := (List.mem_filter.1 hmem).1
  rw [properties_eq] at hproperty
  obtain ⟨member, hmember, hproperty⟩ := List.mem_filterMap.1 hproperty
  exact Node.mem_preorder_of_child hmember (mem_preorder_value hproperty)

theorem call_mem_imports {imports call : Node}
    (h : rootMethodCalls source config imports = [call]) :
    call ∈ imports.preorder ∧ call.kind = .callExpression := by
  have hmem : call ∈ rootMethodCalls source config imports := by simp [h]
  rw [rootMethodCalls_eq] at hmem
  obtain ⟨hmem, hkind⟩ := List.mem_filter.1 hmem
  exact ⟨hmem, by simpa using (Bool.and_eq_true_iff.1 hkind).1⟩

/-- The arguments of the call that is found are in the options of the registrar annotation. -/
theorem arguments_mem_options {call list : Node} (h : rootMethodCall source config = .ok call)
    (hlist : call.child? .arguments = some list) :
    ∃ options, registrarOptions source config = .ok options ∧ list ∈ options.preorder := by
  obtain ⟨options, imports, hoptions, himports, hcall⟩ := rootMethodCall_eq_ok.1 h
  have inCall : list ∈ call.preorder :=
    Node.mem_preorder_of_child (Node.mem_children_of_child? hlist) (Node.mem_preorder_self _)
  exact ⟨options, hoptions, Node.mem_preorder_trans
    (Node.mem_preorder_trans inCall (call_mem_imports hcall).1) (imports_mem_options himports)⟩

/-- **The call that is found in the edited file is the one in whose arguments the edit was
made.** -/
theorem rootMethodCall_edited (revises : e.Revises source source') (plain : e.Plain) {call : Node}
    (h : rootMethodCall source config = .ok call) (hsite : call.child? .arguments = some e.site) :
    ∃ call', rootMethodCall source' config = .ok call' ∧
      call'.child? .arguments = some e.newSite := by
  obtain ⟨options, imports, hoptions, himports, hcall⟩ := rootMethodCall_eq_ok.1 h
  obtain ⟨callInImports, callKind⟩ := call_mem_imports hcall
  have inCall : e.site ∈ call.preorder :=
    Node.mem_preorder_of_child (Node.mem_children_of_child? hsite) (Node.mem_preorder_self _)
  have inImports := Node.mem_preorder_trans inCall callInImports
  have inOptions := Node.mem_preorder_trans inImports (imports_mem_options himports)
  obtain ⟨options', hoptions', optionsPair⟩ := registrarOptions_rel revises plain hoptions inOptions
  obtain ⟨imports', himports', importsPair⟩ :=
    importsArray_rel revises optionsPair himports inImports
  obtain ⟨call', hcall', callPair⟩ := rootMethodCalls_rel revises plain importsPair hcall inCall
  refine ⟨call', rootMethodCall_eq_ok.2 ⟨options', imports', hoptions', himports', hcall'⟩, ?_⟩
  rcases optionRel_cases (callPair.child? (revises.turns.sound.call_ne callKind) .arguments) with
    ⟨hold, -⟩ | ⟨list, list', hold, hnew, pair⟩
  · rw [hsite] at hold
    exact absurd hold (by simp)
  · obtain rfl := Option.some.inj (hsite.symm.trans hold)
    rw [hnew, pair.site_eq revises.turns.sound]

end RouteTrim.Route
