import RouteTrim.Proofs.Path.Normal
import RouteTrim.Proofs.Route.Decoration
import RouteTrim.Proofs.Route.Site
import RouteTrim.Tree.Parse

/-!
# Names and their segments

An annotation or a call is known by a dotted name, and a qualified reference to it will do: the name
is read off the tree as one text and compared with the wanted one as texts are. What that comparison
says is told here by segments. `IsChain` says, apart from the reading, which expressions have a name
and what its segments are. The dots in a joined text stand where its segments meet and nowhere else,
so a text that ends with a dot and a name ends with the segments of that name
(`joinWith_suffix_iff`), never with a part of a segment.
-/

set_option autoImplicit false

namespace RouteTrim.Text

theorem intercalate_eq_joinWith (separator : List Char) (parts : List (List Char)) :
    separator.intercalate parts = joinWith separator parts := by
  induction parts with
  | nil => rfl
  | cons part parts ih =>
    cases parts with
    | nil => exact List.intercalate_singleton
    | cons next parts => rw [List.intercalate_cons_cons, ih, joinWith]

/-- Joined parts are the wanted ones, or end with them behind a separator, if and only if the wanted
parts are the last ones. -/
theorem joinWith_suffix_iff {separator : Char}
    {parts wanted : List (List Char)} (hparts : parts ≠ []) (hwanted : wanted ≠ [])
    (free : ∀ part ∈ parts, separator ∉ part) (wantedFree : ∀ part ∈ wanted, separator ∉ part) :
    (joinWith [separator] parts = joinWith [separator] wanted ∨
      separator :: joinWith [separator] wanted <:+ joinWith [separator] parts) ↔
        wanted <:+ parts := by
  have split_parts := split_joinWith hparts free
  have split_wanted := split_joinWith hwanted wantedFree
  constructor
  · rintro (same | ⟨front, joined⟩)
    · obtain rfl : parts = wanted := calc
        parts = split separator (joinWith [separator] parts) := split_parts.symm
        _ = split separator (joinWith [separator] wanted) := by rw [same]
        _ = wanted := split_wanted
      exact List.suffix_refl parts
    · have ending : split separator front ++ wanted = parts := by
        rw [← split_parts, ← joined, split_append, split_wanted]
      exact ⟨split separator front, ending⟩
  · rintro ⟨front, rfl⟩
    by_cases hfront : front = []
    · subst hfront
      exact .inl rfl
    · refine .inr ⟨joinWith [separator] front, ?_⟩
      rw [joinWith_append hfront hwanted, List.append_assoc, List.singleton_append]

end RouteTrim.Text

namespace RouteTrim.Tree

/-! ## Chains -/

/-- Which expressions are a chain of member accesses over a name or `this`, and the names along
it. -/
inductive IsChain (source : Source) : Node → List String → Prop where
  | name {node : Node} : node.kind ∈ nameKinds → IsChain source node [source.textOf node]
  | access {node object property : Node} {names : List String} :
      node.kind = .memberExpression → node.child? .object = some object →
      node.child? .property = some property → IsChain source object names →
      IsChain source node (names ++ [source.textOf property])

section

variable {source : Source} {node : Node}

theorem IsChain.ne_nil {names : List String} (h : IsChain source node names) : names ≠ [] := by
  cases h <;> simp

/-- **The names that are read along an expression are those of a chain.** -/
theorem segments?_eq_some_iff {names : List String} :
    source.segments? node = some names ↔ IsChain source node names := by
  constructor
  · intro h
    induction node using Node.induction generalizing names with
    | step node ih =>
      by_cases hname : node.kind ∈ nameKinds
      · rw [Source.segments?_name hname] at h
        obtain rfl := Option.some.inj h
        exact .name hname
      · by_cases hmember : node.kind = .memberExpression
        · rw [Source.segments?_member hmember] at h
          obtain ⟨front, hfront, h⟩ := Option.bind_eq_some_iff.1 h
          obtain ⟨object, hobject, hfront⟩ := Option.bind_eq_some_iff.1 hfront
          obtain ⟨property, hproperty, h⟩ := Option.bind_eq_some_iff.1 h
          obtain rfl := Option.some.inj h
          exact .access hmember hobject hproperty
            (ih object (Node.mem_children_of_child? hobject) hfront)
        · rw [Source.segments?_other hname hmember] at h
          exact absurd h (by simp)
  · intro h
    induction h with
    | name hname => exact Source.segments?_name hname
    | access hmember hobject hproperty _ ih =>
      rw [Source.segments?_member hmember, hobject, hproperty]
      simp only [Option.bind_eq_bind, Option.bind_some, ih]
      rfl

theorem IsChain.unique {names others : List String} (h : IsChain source node names)
    (h' : IsChain source node others) : names = others :=
  Option.some.inj ((segments?_eq_some_iff.2 h).symm.trans (segments?_eq_some_iff.2 h'))

theorem dottedName?_eq_some_iff {name : String} : source.dottedName? node = some name ↔
    ∃ names, IsChain source node names ∧ name = ".".intercalate names := by
  rw [Source.dottedName?, Option.map_eq_some_iff]
  exact exists_congr fun names => and_congr segments?_eq_some_iff eq_comm

/-- What a call calls. -/
def Calls (source : Source) (call : Node) (names : List String) : Prop :=
  ∃ callee, call.child? .callee = some callee ∧ IsChain source callee names

theorem Calls.ne_nil {call : Node} {names : List String} (h : Calls source call names) :
    names ≠ [] := by
  obtain ⟨callee, -, chain⟩ := h
  exact chain.ne_nil

theorem Calls.unique {call : Node} {names others : List String} (h : Calls source call names)
    (h' : Calls source call others) : names = others := by
  obtain ⟨callee, hcallee, chain⟩ := h
  obtain ⟨callee', hcallee', chain'⟩ := h'
  obtain rfl := Option.some.inj (hcallee.symm.trans hcallee')
  exact chain.unique chain'

theorem calleeName?_eq_some_iff {call : Node} {name : String} :
    source.calleeName? call = some name ↔
    ∃ names, Calls source call names ∧ name = ".".intercalate names := by
  unfold Source.calleeName? Calls
  rw [Option.bind_eq_bind, Option.bind_eq_some_iff]
  constructor
  · rintro ⟨callee, hcallee, hname⟩
    obtain ⟨names, chain, rfl⟩ := dottedName?_eq_some_iff.1 hname
    exact ⟨names, ⟨callee, hcallee, chain⟩, rfl⟩
  · rintro ⟨names, ⟨callee, hcallee, chain⟩, rfl⟩
    exact ⟨callee, hcallee, dottedName?_eq_some_iff.2 ⟨names, chain, rfl⟩⟩

end

end RouteTrim.Tree

namespace RouteTrim.Route

open RouteTrim.Settings (BuildConfig)
open RouteTrim.Text (endsWith_iff intercalate_eq_joinWith joinWith_suffix_iff)
open RouteTrim.Tree

variable {source : Source}

/-- A segment of a dotted name. -/
def IsWord (name : String) : Prop :=
  name ≠ "" ∧ '.' ∉ name.toList

instance (name : String) : Decidable (IsWord name) :=
  inferInstanceAs (Decidable (_ ∧ _))

theorem toList_join (names : List String) :
    (".".intercalate names).toList = Text.joinWith ['.'] (names.map String.toList) := by
  rw [String.toList_intercalate]
  exact intercalate_eq_joinWith ['.'] _

theorem map_toList_suffix_iff {names wanted : List String} :
    wanted.map String.toList <:+ names.map String.toList ↔ wanted <:+ names := by
  constructor
  · intro h
    have back := h.map String.ofList
    simpa [List.map_map, Function.comp_def] using back
  · exact fun h => h.map String.toList

/-- **A name matches if and only if its last segments are the wanted ones.** -/
theorem nameMatches_join_iff {names wanted : List String} (hnames : names ≠ [])
    (hwanted : wanted ≠ [])
    (words : ∀ name ∈ names, IsWord name) (wantedWords : ∀ name ∈ wanted, IsWord name) :
    nameMatches (some (".".intercalate names)) (".".intercalate wanted) = true ↔
      wanted <:+ names := by
  have free {texts : List String} (h : ∀ text ∈ texts, IsWord text) :
      ∀ part ∈ texts.map String.toList, '.' ∉ part := by
    intro part hpart
    obtain ⟨text, htext, rfl⟩ := List.mem_map.1 hpart
    exact (h text htext).2
  have segmentwise := joinWith_suffix_iff (by simpa using hnames) (by simpa using hwanted)
    (free words) (free wantedWords)
  rw [map_toList_suffix_iff, ← toList_join, ← toList_join] at segmentwise
  rw [← segmentwise, nameMatches, Bool.or_eq_true, beq_iff_eq, endsWith_iff, String.toList_inj]

/-- What is looked for has a text. -/
theorem join_ne_empty {wanted : List String} (hwanted : wanted ≠ [])
    (words : ∀ name ∈ wanted, IsWord name) : ".".intercalate wanted ≠ "" := by
  obtain ⟨first, rest, rfl⟩ := List.exists_cons_of_ne_nil hwanted
  obtain ⟨filled, -⟩ := words first List.mem_cons_self
  intro empty
  have chars := toList_join (first :: rest)
  rw [empty] at chars
  cases rest with
  | nil => exact filled (String.toList_injective chars.symm)
  | cons next rest => exact absurd chars.symm (by simp [Text.joinWith])

theorem nameMatches_getD (found : Option String) {wanted : String} (filled : wanted ≠ "") :
    nameMatches (some (found.getD "")) wanted = nameMatches found wanted := by
  cases found with
  | some name => rfl
  | none =>
    refine Bool.eq_false_iff.2 fun h => ?_
    rw [Option.getD_none, nameMatches, Bool.or_eq_true, beq_iff_eq, endsWith_iff] at h
    rcases h with empty | ending
    · exact filled empty.symm
    · exact absurd (List.suffix_nil.1 ending) (by simp)

/-- A name that may be missing matches if there is one that ends with the wanted segments. -/
theorem nameMatches_iff {found : Option String} {Called : List String → Prop}
    (spelled : ∀ name, found = some name ↔ ∃ names, Called names ∧ name = ".".intercalate names)
    (filled : ∀ names, Called names → names ≠ [] ∧ ∀ name ∈ names, IsWord name)
    {wanted : List String} (hwanted : wanted ≠ []) (wantedWords : ∀ name ∈ wanted, IsWord name) :
    nameMatches found (".".intercalate wanted) = true ↔ ∃ names, Called names
      ∧ wanted <:+ names := by
  have matched {names : List String} (called : Called names) :
      nameMatches found (".".intercalate wanted) = true ↔ wanted <:+ names := by
    obtain ⟨filled, words⟩ := filled names called
    rw [(spelled _).2 ⟨names, called, rfl⟩]
    exact nameMatches_join_iff filled hwanted words wantedWords
  constructor
  · intro h
    cases hfound : found with
    | none => rw [hfound] at h; exact absurd h (by simp [nameMatches])
    | some name =>
      obtain ⟨names, called, -⟩ := (spelled name).1 hfound
      exact ⟨names, called, (matched called).1 h⟩
  · rintro ⟨names, called, h⟩
    exact (matched called).2 h

/-! ## Annotations and calls -/

/-- What a decorator is called by: the chain that it calls, or that it is. -/
inductive Names (source : Source) (decorator : Node) (names : List String) : Prop where
  | called {call : Node} : decorator.children.head? = some call → call.kind = .callExpression →
      Calls source call names → Names source decorator names
  | bare {expression : Node} : decorator.children.head? = some expression →
      expression.kind ≠ .callExpression → IsChain source expression names →
      Names source decorator names

theorem Names.ne_nil {decorator : Node} {names : List String} (h : Names source decorator names) :
    names ≠ [] := by
  cases h with
  | called _ _ calls => exact calls.ne_nil
  | bare _ _ chain => exact chain.ne_nil

theorem Names.unique {decorator : Node} {names others : List String}
    (h : Names source decorator names) (h' : Names source decorator others) : names = others := by
  cases h with
  | called head call calls =>
    cases h' with
    | called head' _ calls' =>
      obtain rfl := Option.some.inj (head.symm.trans head')
      exact calls.unique calls'
    | bare head' other => exact absurd call (Option.some.inj (head.symm.trans head') ▸ other)
  | bare head other chain =>
    cases h' with
    | called head' call => exact absurd (Option.some.inj (head.symm.trans head') ▸ call) other
    | bare head' _ chain' =>
      obtain rfl := Option.some.inj (head.symm.trans head')
      exact chain.unique chain'

theorem exists_name_ofDecorator (source : Source) (decorator : Node) : ∃ found : Option String,
    (Decoration.ofDecorator source decorator).name = found.getD "" ∧
      ∀ name, found = some name ↔
        ∃ names, Names source decorator names ∧ name = ".".intercalate names := by
  unfold Decoration.ofDecorator
  cases hhead : decorator.children.head? with
  | none =>
    refine ⟨none, rfl, fun name => iff_of_false (by simp) ?_⟩
    rintro ⟨names, named, -⟩
    cases named with
    | called head => exact absurd (hhead.symm.trans head) (by simp)
    | bare head => exact absurd (hhead.symm.trans head) (by simp)
  | some expression =>
    by_cases hcall : expression.kind = .callExpression
    · refine ⟨source.calleeName? expression, by simp [hcall], fun name => ?_⟩
      rw [calleeName?_eq_some_iff]
      refine exists_congr fun names => and_congr_left fun _ =>
        ⟨.called hhead hcall, fun named => ?_⟩
      cases named with
      | called head _ calls => exact Option.some.inj (hhead.symm.trans head) ▸ calls
      | bare head other =>
        exact absurd hcall (Option.some.inj (hhead.symm.trans head) ▸ other)
    · refine ⟨source.dottedName? expression, by simp [hcall], fun name => ?_⟩
      rw [dottedName?_eq_some_iff]
      refine exists_congr fun names => and_congr_left fun _ => ⟨.bare hhead hcall, fun named => ?_⟩
      cases named with
      | called head call => exact absurd (Option.some.inj (hhead.symm.trans head) ▸ call) hcall
      | bare head _ chain => exact Option.some.inj (hhead.symm.trans head) ▸ chain

theorem mem_annotatedClasses_iff {wanted : String} {visit : Node.Visit} {decorator : Node}
    (hvisit : visit ∈ source.root.visits) (hclass : isClassDeclaration visit.node.kind = true)
    (hdecorator : decorator ∈ decoratorsOf visit) :
    (∃ c ∈ annotatedClasses source wanted, c.node = visit.node ∧
      Decoration.ofDecorator source decorator ∈ c.decorations) ↔
        nameMatches (some (Decoration.ofDecorator source decorator).name) wanted = true := by
  rw [annotatedClasses_eq]
  constructor
  · rintro ⟨c, hc, -, hdecoration⟩
    obtain ⟨_, -, found⟩ := List.mem_filterMap.1 hc
    exact ((annotatedClass?_eq_some found).2.2 _ hdecoration).1
  · intro hname
    let found := ((decoratorsOf visit).map (Decoration.ofDecorator source)).filter fun a =>
      nameMatches (some a.name) wanted
    have here : Decoration.ofDecorator source decorator ∈ found :=
      List.mem_filter.2 ⟨List.mem_map_of_mem hdecorator, hname⟩
    refine ⟨⟨className source visit.node, source.path, visit.node, found⟩,
      List.mem_filterMap.2 ⟨visit, hvisit, ?_⟩, rfl, here⟩
    unfold annotatedClass?
    rw [if_pos hclass]
    exact if_neg fun empty => List.ne_nil_of_mem here (List.isEmpty_iff.1 empty)

theorem mem_rootMethodCalls_iff {config : BuildConfig} {tree call : Node} :
    call ∈ rootMethodCalls source config tree
      ↔ (call ∈ tree.preorder ∧ call.kind = .callExpression) ∧
      nameMatches (source.calleeName? call) config.rootMethodName = true := by
  rw [rootMethodCalls_eq, List.mem_filter, Bool.and_eq_true, beq_iff_eq, and_assoc]

/-- **Names are matched by segments.** An expression has a name exactly if it is a chain of
accesses, and the name is the joined segments of the chain. A name matches a wanted one exactly if
it ends with its segments. So a decorator of a class is taken for an annotation, and a call for one
of the root method, exactly if the segments that it is called by end with the ones looked for. -/
theorem names_match_by_segments (wanted : List String) (filled : wanted ≠ [])
    (words : ∀ name ∈ wanted, IsWord name) (source : Source) :
    (∀ node name, source.dottedName? node = some name ↔
      ∃ names, IsChain source node names ∧ name = ".".intercalate names) ∧
    (∀ names : List String, names ≠ [] → (∀ name ∈ names, IsWord name) →
      (nameMatches (some (".".intercalate names)) (".".intercalate wanted) = true ↔
        wanted <:+ names)) ∧
    (∀ visit ∈ source.root.visits, isClassDeclaration visit.node.kind = true →
      ∀ decorator ∈ decoratorsOf visit,
      (∀ names, Names source decorator names → ∀ name ∈ names, IsWord name) →
      ((∃ c ∈ annotatedClasses source (".".intercalate wanted), c.node = visit.node ∧
        Decoration.ofDecorator source decorator ∈ c.decorations) ↔
          ∃ names, Names source decorator names ∧ wanted <:+ names)) ∧
    (∀ (config : BuildConfig) (tree call : Node),
      config.rootMethodName = ".".intercalate wanted →
      (∀ names, Calls source call names → ∀ name ∈ names, IsWord name) →
      (call ∈ rootMethodCalls source config tree ↔
        (call ∈ tree.preorder ∧ call.kind = .callExpression) ∧
          ∃ names, Calls source call names ∧ wanted <:+ names)) := by
  refine ⟨fun node name => dottedName?_eq_some_iff,
    fun names hnames hwords => nameMatches_join_iff hnames filled hwords words,
    fun visit hvisit hclass decorator hdecorator hwords => ?_,
    fun config tree call hconfig hwords => ?_⟩
  · obtain ⟨found, called, spelled⟩ := exists_name_ofDecorator source decorator
    rw [mem_annotatedClasses_iff hvisit hclass hdecorator, called,
      nameMatches_getD found (join_ne_empty filled words)]
    exact nameMatches_iff spelled (fun names named => ⟨named.ne_nil, hwords names named⟩) filled words
  · rw [mem_rootMethodCalls_iff, hconfig]
    exact and_congr_right fun _ => nameMatches_iff (fun name => calleeName?_eq_some_iff)
      (fun names called => ⟨called.ne_nil, hwords names called⟩) filled words

def qualifiedCall : Node :=
  .mk .callExpression .plain ⟨1, 5⟩
    [.mk .memberExpression .callee ⟨1, 3⟩
      [.mk .identifier .object ⟨1, 1⟩ [], .mk .propertyIdentifier .property ⟨3, 1⟩ []],
    .mk .arguments .arguments ⟨4, 2⟩ []]

def lookalikeCall : Node :=
  .mk .callExpression .plain ⟨8, 5⟩
    [.mk .identifier .callee ⟨8, 3⟩ [], .mk .arguments .arguments ⟨11, 2⟩ []]

def qualified : Node :=
  .mk .decorator .plain ⟨0, 6⟩ [qualifiedCall]

def lookalike : Node :=
  .mk .decorator .plain ⟨7, 6⟩ [lookalikeCall]

def decoratedClass : Node :=
  .mk .classDeclaration .plain ⟨0, 24⟩ [qualified, lookalike,
    .mk .typeIdentifier .name ⟨20, 1⟩ [], .mk .classBody .plain ⟨22, 2⟩ []]

/-- A class with a qualified annotation, and one whose name has the same end. -/
def decorated : Source where
  path := "a.ts"
  text := "@b.P() @MyP() class A \x7b\x7d".toList
  root := .mk .program .plain ⟨0, 24⟩ [decoratedClass]

/-- The qualified annotation is one, and its call is one of `b.P`; the other is neither. -/
theorem names_match_by_segments_qualified :
    parse decorated.text = decorated.root ∧
      (∃ c ∈ annotatedClasses decorated "P", c.node = decoratedClass ∧
        Decoration.ofDecorator decorated qualified ∈ c.decorations) ∧
      (¬∃ c ∈ annotatedClasses decorated "P", c.node = decoratedClass ∧
        Decoration.ofDecorator decorated lookalike ∈ c.decorations) ∧
      ∀ config : BuildConfig, config.rootMethodName = "b.P" →
        qualifiedCall ∈ rootMethodCalls decorated config decorated.root ∧
          lookalikeCall ∉ rootMethodCalls decorated config decorated.root := by
  have joinedName : ".".intercalate ["P"] = "P" := by decide +kernel
  have joinedPair : ".".intercalate ["b", "P"] = "b.P" := by decide +kernel
  obtain ⟨-, -, annotations, -⟩ :=
    names_match_by_segments ["P"] (by decide) (by decide) decorated
  obtain ⟨-, -, -, calls⟩ :=
    names_match_by_segments ["b", "P"] (by decide) (by decide) decorated
  rw [joinedName] at annotations
  rw [joinedPair] at calls
  have visited : (⟨some decorated.root, decoratedClass⟩ : Node.Visit) ∈ decorated.root.visits := by
    rw [Node.visits_eq]
    exact List.mem_cons_of_mem _ List.mem_cons_self
  have qualifiedChain : Calls decorated qualifiedCall ["b", "P"] :=
    ⟨_, rfl, segments?_eq_some_iff.1 (by decide +kernel)⟩
  have lookalikeChain : Calls decorated lookalikeCall ["MyP"] :=
    ⟨_, rfl, segments?_eq_some_iff.1 (by decide +kernel)⟩
  have qualifiedNames : ∀ names, Names decorated qualified names → names = ["b", "P"] :=
    fun names h => h.unique (.called rfl rfl qualifiedChain)
  have lookalikeNames : ∀ names, Names decorated lookalike names → names = ["MyP"] :=
    fun names h => h.unique (.called rfl rfl lookalikeChain)
  refine ⟨by decide +kernel, ?_, ?_, fun config named => ⟨?_, ?_⟩⟩
  · refine (annotations _ visited rfl qualified (by decide) fun names h => ?_).2
      ⟨["b", "P"], .called rfl rfl qualifiedChain, by decide⟩
    rw [qualifiedNames names h]
    decide
  · intro taken
    obtain ⟨names, h, ending⟩ := (annotations _ visited rfl lookalike (by decide) fun names h => by
      rw [lookalikeNames names h]
      decide).1 taken
    rw [lookalikeNames names h] at ending
    exact absurd ending (by decide)
  · refine (calls config decorated.root qualifiedCall named fun names h => ?_).2
      ⟨⟨by decide, rfl⟩, ["b", "P"], qualifiedChain, by decide⟩
    rw [h.unique qualifiedChain]
    decide
  · intro taken
    obtain ⟨-, names, h, ending⟩ :=
      (calls config decorated.root lookalikeCall named fun names h => by
        rw [h.unique lookalikeChain]
        decide).1 taken
    rw [h.unique lookalikeChain] at ending
    exact absurd ending (by decide)

end RouteTrim.Route
