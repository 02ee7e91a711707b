import RouteTrim.Proofs.Graph.Pruning
import RouteTrim.Proofs.Route.Options
import Mathlib.Logic.Relation

/-!
# Files with restyled options

If the option objects of a file are rewritten by moves, the routes of the file make the same
choices, or none of them is read in either version. What stands around the annotations does not
matter, as long as the file still has the same annotated classes in the same order: code that is put
into an option object is searched for classes like any other.
-/

set_option autoImplicit false

namespace RouteTrim.Route

open RouteTrim.Settings (BuildConfig)
open RouteTrim.Text
open RouteTrim.Tree
open RouteTrim.Tree.StringValue

/-! ## One literal -/

/-- What an annotation with an option object decides; nothing if a key comes twice. -/
def ObjectLiteral.choices? (className : String) (literal : ObjectLiteral) : Option Choices :=
  if literal.keys.Nodup then (readChoices literal.source className literal.options).toOption
  else none

theorem Move.choices?_eq {literal literal' : ObjectLiteral} (h : Move literal literal')
    (className : String) : literal'.choices? className = literal.choices? className := by
  obtain ⟨distinct, options⟩ := h.sameMapping
  unfold ObjectLiteral.choices?
  by_cases once : literal.keys.Nodup
  · rw [if_pos once, if_pos (distinct.2 once), readChoices_same (options once)]
  · rw [if_neg once, if_neg fun once' => once (distinct.1 once')]

/-- A chain of moves, forwards and backwards. -/
def Restyled : ObjectLiteral → ObjectLiteral → Prop :=
  Relation.EqvGen Move

/-- **Restyling keeps the choices.** -/
theorem Restyled.choices?_eq {literal literal' : ObjectLiteral} (h : Restyled literal literal')
    (className : String) : literal'.choices? className = literal.choices? className := by
  induction h with
  | rel _ _ move => exact move.choices?_eq className
  | refl _ => rfl
  | symm _ _ _ ih => exact ih.symm
  | trans _ _ _ _ _ first next => exact next.trans first

section

variable {source : Source} {c : AnnotatedClass} {object : Node}

theorem readOptions_object (arguments : c.arguments = [object]) (kind : object.kind = .object) :
    readOptions source c
      = distinctOptions c.className source.path (source.properties object) [] := by
  unfold readOptions
  rw [arguments]
  dsimp only
  rw [kind, if_pos (by decide)]

/-- The options of an annotated class are those of its literal, or a key comes twice. -/
theorem readOptions_cases (source : Source) (arguments : c.arguments = [object])
    (kind : object.kind = .object) :
    let literal : ObjectLiteral := ⟨source, object.children⟩
    (literal.keys.Nodup ∧ readOptions source c = .ok literal.options)
      ∨ ∃ key, 1 < literal.keys.count key ∧
        readOptions source c = .error (.repeatedOption key c.className source.path) := by
  have start : (([] : Options).map Prod.fst).Nodup := List.nodup_nil
  rw [readOptions_object arguments kind]
  exact distinctOptions_cases c.className source.path (source.properties object) start

theorem toOption_readEntry (arguments : c.arguments = [object]) (kind : object.kind = .object) :
    (readEntry source c).toOption.map Entry.choices
      = ObjectLiteral.choices? c.className ⟨source, object.children⟩ := by
  rw [← toOption_map, choices_readEntry, toOption_bind, ObjectLiteral.choices?]
  rcases readOptions_cases source arguments kind with ⟨once, read⟩ | ⟨key, twice, read⟩
  · rw [read, if_pos once]
    rfl
  · rw [read, if_neg fun once => absurd (List.nodup_iff_count.1 once key) (by omega)]
    rfl

theorem readEntry_object_eq_ok (arguments : c.arguments = [object]) (kind : object.kind = .object)
    {choices : Choices} :
    (∃ entry, readEntry source c = .ok entry ∧ entry.choices = choices)
      ↔ (ObjectLiteral.keys ⟨source, object.children⟩).Nodup
        ∧ Fit source (ObjectLiteral.options ⟨source, object.children⟩)
        ∧ choices = choicesOf source c.className
          (ObjectLiteral.options ⟨source, object.children⟩) := by
  have outcome : (∃ entry, readEntry source c = .ok entry ∧ entry.choices = choices)
      ↔ (readEntry source c).toOption.map Entry.choices = some choices := by
    simp only [Option.map_eq_some_iff, toOption_eq_some]
  rw [outcome, toOption_readEntry arguments kind, ObjectLiteral.choices?]
  by_cases once : (ObjectLiteral.keys ⟨source, object.children⟩).Nodup
  · rw [if_pos once, toOption_eq_some, readChoices_eq_ok]
    exact (and_iff_right once).symm
  · rw [if_neg once]
    exact ⟨fun h => (nomatch h), fun h => absurd h.1 once⟩

/-- **A key that comes twice is a fault**, which names such a key. -/
theorem readEntry_repeated (arguments : c.arguments = [object]) (kind : object.kind = .object)
    (twice : ¬ (ObjectLiteral.keys ⟨source, object.children⟩).Nodup) :
    ∃ key, 1 < (ObjectLiteral.keys ⟨source, object.children⟩).count key ∧
      readEntry source c = .error (.repeatedOption key c.className source.path) := by
  rcases readOptions_cases source arguments kind with ⟨once, -⟩ | ⟨key, count, read⟩
  · exact absurd once twice
  · refine ⟨key, count, ?_⟩
    unfold readEntry
    rw [read]
    rfl

end

/-! ## Classes -/

/-- Arguments that are no options: one that is no object, or several. -/
def Unfit (arguments : List Node) : Prop :=
  arguments ≠ [] ∧ ∀ object, arguments = [object] → object.kind ≠ .object

/-- The arguments of an annotation and of the one that it becomes. -/
inductive SameArguments (a b : Source) : List Node → List Node → Prop
  | bare : SameArguments a b [] []
  | options {object object' : Node} : object.kind = .object → object'.kind = .object →
      Restyled ⟨a, object.children⟩ ⟨b, object'.children⟩ → SameArguments a b [object] [object']
  | unfit {arguments arguments' : List Node} : Unfit arguments → Unfit arguments' →
      SameArguments a b arguments arguments'

/-- An annotated class and the one that it becomes when its options are restyled. -/
structure RestyledClass (a b : Source) (c d : AnnotatedClass) : Prop where
  className : d.className = c.className
  count : d.decorations.length = c.decorations.length
  arguments : SameArguments a b c.arguments d.arguments

section

variable {a b source : Source} {c d : AnnotatedClass}

theorem readOptions_unfit (h : Unfit c.arguments) :
    readOptions source c = .error (.optionsNotObject c.className source.path) := by
  obtain ⟨some_, other⟩ := h
  unfold readOptions
  split
  · contradiction
  · next argument single => rw [beq_false_of_ne (other argument single), if_neg (by decide)]
  · rfl

theorem RestyledClass.choices_eq (h : RestyledClass a b c d) :
    (readEntry b d).toOption.map Entry.choices = (readEntry a c).toOption.map Entry.choices := by
  have arguments := h.arguments
  generalize old : c.arguments = before at arguments
  generalize new : d.arguments = behind at arguments
  cases arguments with
  | bare =>
    rw [← toOption_map, ← toOption_map, choices_readEntry, choices_readEntry, readOptions,
      readOptions, old, new, h.className]
    exact readChoices_same (show SameOptions a b [] [] from fun _ _ => .none)
  | options kind kind' restyled =>
    rw [toOption_readEntry old kind, toOption_readEntry new kind', h.className,
      restyled.choices?_eq]
  | unfit unfit unfit' =>
    rw [← old] at unfit
    rw [← new] at unfit'
    rw [← toOption_map, ← toOption_map, choices_readEntry, choices_readEntry,
      readOptions_unfit unfit, readOptions_unfit unfit']
    rfl

/-! ## Files -/

theorem scan_restyled {wanted : String} (classes : List.Forall₂ (RestyledClass a b)
    (annotatedClasses a wanted) (annotatedClasses b wanted)) :
    ((scan a wanted).toOption = none ∧ (scan b wanted).toOption = none)
      ∨ (scan a wanted = .ok (annotatedClasses a wanted)
        ∧ scan b wanted = .ok (annotatedClasses b wanted)) := by
  have repeated := find?_rel (p := fun c => decide (1 < c.decorations.length))
    (q := fun c => decide (1 < c.decorations.length)) (fun _ _ pair => by rw [pair.count]) classes
  unfold scan
  dsimp only
  rcases optionRel_cases repeated with ⟨hold, hnew⟩ | ⟨_, _, hold, hnew, -⟩
  · rw [hold, hnew]
    exact .inr ⟨rfl, rfl⟩
  · rw [hold, hnew]
    exact .inl ⟨rfl, rfl⟩

theorem entriesOf_restyled {config : BuildConfig} (classes : List.Forall₂ (RestyledClass a b)
    (annotatedClasses a config.routeDecorator) (annotatedClasses b config.routeDecorator)) :
    (entriesOf b config).toOption.map (List.map Entry.choices)
      = (entriesOf a config).toOption.map (List.map Entry.choices) := by
  unfold entriesOf
  rw [toOption_bind, toOption_bind]
  rcases scan_restyled classes with ⟨old, new⟩ | ⟨old, new⟩
  · rw [old, new]
    rfl
  · rw [old, new]
    show ((annotatedClasses b _).mapM (readEntry b)).toOption.map _
      = ((annotatedClasses a _).mapM (readEntry a)).toOption.map _
    rw [← toOption_map, ← toOption_map, map_mapM, map_mapM]
    refine toOption_mapM_eq classes fun c d pair => ?_
    rw [toOption_map, toOption_map, pair.choices_eq]

theorem entriesOf_repeated {config : BuildConfig} {object : Node}
    (annotated : c ∈ annotatedClasses source config.routeDecorator)
    (arguments : c.arguments = [object]) (kind : object.kind = .object)
    (twice : ¬ (ObjectLiteral.keys ⟨source, object.children⟩).Nodup) :
    ∃ failure, entriesOf source config = .error failure := by
  cases read : entriesOf source config with
  | error failure => exact ⟨failure, rfl⟩
  | ok entries =>
    unfold entriesOf at read
    obtain ⟨classes, scanned, read⟩ := bind_eq_ok.1 read
    obtain rfl : annotatedClasses source config.routeDecorator = classes := by
      unfold scan at scanned
      dsimp only at scanned
      split at scanned
      · cases scanned
      · exact Except.ok.inj scanned
    obtain ⟨entry, own⟩ := forall_ok_of_mapM_eq_ok read c annotated
    obtain ⟨key, -, fault⟩ := readEntry_repeated arguments kind twice
    rw [fault] at own
    cases own

end

/-- **The options of a route are a mapping from keys, as they are read, to values.** If the option
objects of a file are restyled and its annotated classes stay what they are, then either both
versions have routes with the same choices or neither has any. An annotation is read exactly if no
key comes twice and the values under the known keys fit; a key that comes twice is a fault, which
names such a key. -/
theorem entriesOf_options_mapping (config : BuildConfig) :
    (∀ a b : Source, List.Forall₂ (RestyledClass a b) (annotatedClasses a config.routeDecorator)
        (annotatedClasses b config.routeDecorator) →
      (entriesOf b config).toOption.map (List.map Entry.choices)
        = (entriesOf a config).toOption.map (List.map Entry.choices))
    ∧ ∀ source : Source, ∀ c ∈ annotatedClasses source config.routeDecorator, ∀ object : Node,
      c.arguments = [object] → object.kind = .object →
      let literal : ObjectLiteral := ⟨source, object.children⟩
      (∀ choices, (∃ entry, readEntry source c = .ok entry ∧ entry.choices = choices)
        ↔ literal.keys.Nodup ∧ Fit source literal.options
          ∧ choices = choicesOf source c.className literal.options)
      ∧ (¬ literal.keys.Nodup →
        (∃ key, 1 < literal.keys.count key
          ∧ readEntry source c = .error (.repeatedOption key c.className source.path))
        ∧ ∃ failure, entriesOf source config = .error failure) :=
  ⟨fun _ _ => entriesOf_restyled, fun _ _ annotated _ arguments kind =>
    ⟨fun _ => readEntry_object_eq_ok arguments kind, fun twice =>
      ⟨readEntry_repeated arguments kind twice,
        entriesOf_repeated annotated arguments kind twice⟩⟩⟩

/-- A file with one annotated class. -/
def optionsPage (options : String) : Source :=
  .ofText ("@IonicPage(" ++ options ++ ") class A \x7b\x7d") "a.ts"

/-- Such a file by the characters of its options. The kernel takes long to decode a text, so the
files below are rewritten to their characters before they are read. -/
theorem optionsPage_ofList (options : List Char) :
    optionsPage (.ofList options) =
      let text := ['@', 'I', 'o', 'n', 'i', 'c', 'P', 'a', 'g', 'e', '('] ++ options
        ++ [')', ' ', 'c', 'l', 'a', 's', 's', ' ', 'A', ' ', '\x7b', '\x7d']
      ⟨"a.ts", text, parse text⟩ := by
  rw [optionsPage, Source.ofText, String.toList_append, String.toList_append, String.toList_ofList,
    String.toList_ofList, String.toList_ofList]
  rfl

def optionMembers (source : Source) : List Node :=
  (annotatedClasses source ImportGraph.sampleConfig.routeDecorator).flatMap fun c =>
    c.arguments.flatMap Node.children

theorem exists_optionsClass (source : Source) (name : String) (members : List Node)
    (h : (annotatedClasses source ImportGraph.sampleConfig.routeDecorator).map (fun c =>
      (c.className, c.decorations.length,
        c.arguments.map fun object => (object.kind, object.children)))
          = [(name, 1, [(.object, members)])]) :
    ∃ c object, annotatedClasses source ImportGraph.sampleConfig.routeDecorator = [c]
      ∧ c.className = name ∧ c.decorations.length = 1 ∧ c.arguments = [object]
      ∧ object.kind = .object ∧ object.children = members := by
  obtain ⟨c, rest, classes, own, none⟩ := List.map_eq_cons_iff.1 h
  obtain rfl := List.map_eq_nil_iff.1 none
  simp only [Prod.mk.injEq] at own
  obtain ⟨className, count, arguments⟩ := own
  obtain ⟨object, rest, single, own, none⟩ := List.map_eq_cons_iff.1 arguments
  obtain rfl := List.map_eq_nil_iff.1 none
  simp only [Prod.mk.injEq] at own
  exact ⟨c, object, classes, className, count, single, own⟩

def wordAt (start length : Nat) : Node :=
  .mk .propertyIdentifier .key ⟨start, length⟩ []

def stringAt (role : Role) (start length : Nat) : Node :=
  .mk .string role ⟨start, length⟩ [.mk .stringFragment .plain ⟨start + 1, length - 2⟩ []]

def pairAt (start length : Nat) (key value : Node) : Node :=
  .mk .pair .plain ⟨start, length⟩ [key, value]

def plainMembers : List Node :=
  [pairAt 13 9 (wordAt 13 4) (stringAt .value 19 3),
    pairAt 24 21 (wordAt 24 14) (.mk .array .value ⟨40, 5⟩ [stringAt .plain 41 3])]

def plainOptions : Source :=
  optionsPage "\x7b name: 'x', defaultHistory: ['y'] \x7d"

/-- The history of `restyledOptions`, a method, an unknown option, and the name in quotes. -/
def restyledMembers : List Node :=
  [pairAt 13 29 (wordAt 13 14) (.mk .array .value ⟨29, 13⟩ [stringAt .plain 38 3]),
    .mk .methodDefinition .plain ⟨44, 6⟩ [.mk .propertyIdentifier .name ⟨44, 1⟩ [],
      .mk .formalParameters .plain ⟨45, 2⟩ [], .mk .block .plain ⟨48, 2⟩ []],
    pairAt 52 4 (wordAt 52 1) (.mk .number .value ⟨55, 1⟩ []),
    pairAt 58 11 (stringAt .key 58 6) (stringAt .value 66 3)]

def restyledOptions : Source :=
  optionsPage "\x7b defaultHistory: [/* z */ 'y'], m() \x7b\x7d, k: 1, 'name': 'x' \x7d"

/-- The name is put in quotes and the history gets a comment; an unknown option and a method come
in front of the other members, which change places. -/
theorem restyled_options :
    Restyled ⟨plainOptions, plainMembers⟩ ⟨restyledOptions, restyledMembers⟩ := by
  have keyWord : IsKeyWord "name".toList := by decide
  obtain ⟨name, historyKey, element⟩ :
      SameCode plainOptions restyledOptions (stringAt .value 19 3) (stringAt .value 66 3) ∧
      SameCode plainOptions restyledOptions (wordAt 24 14) (wordAt 13 14) ∧
      SameCode plainOptions restyledOptions (stringAt .plain 41 3) (stringAt .plain 38 3) := by
    rw [plainOptions, restyledOptions, optionsPage_ofList, optionsPage_ofList]
    decide +kernel
  have bare : SpellsKey plainOptions "name".toList (wordAt 13 4) := by
    rw [plainOptions, optionsPage_ofList]
    exact .bare (by decide) (by decide +kernel)
  have quoted : SpellsKey restyledOptions "name".toList (stringAt .key 58 6) := by
    rw [restyledOptions, optionsPage_ofList]
    exact .quoted (show isQuote '\'' = true from rfl) rfl (by decide +kernel)
  have recast : Move ⟨plainOptions, plainMembers⟩
      ⟨restyledOptions, [restyledMembers[3], restyledMembers[0]]⟩ :=
    .recast (.cons (.pair rfl rfl rfl rfl (.word keyWord bare quoted) rfl rfl
        (.code (by decide) name))
      (.cons (.pair rfl rfl rfl rfl (.code historyKey) rfl rfl
        (.array rfl rfl (.cons element .nil))) .nil))
  have addUnknown : Move ⟨restyledOptions, [restyledMembers[3], restyledMembers[0]]⟩
      ⟨restyledOptions, [restyledMembers[2], restyledMembers[3], restyledMembers[0]]⟩ :=
    .addUnknown rfl (by decide +kernel) (by decide +kernel)
  have addOther : Move ⟨restyledOptions, [restyledMembers[2], restyledMembers[3],
      restyledMembers[0]]⟩ ⟨restyledOptions, [restyledMembers[1], restyledMembers[2],
        restyledMembers[3], restyledMembers[0]]⟩ :=
    .addOther (by decide) (by decide)
  have permute : Move ⟨restyledOptions, [restyledMembers[1], restyledMembers[2],
      restyledMembers[3], restyledMembers[0]]⟩ ⟨restyledOptions, restyledMembers⟩ :=
    .permute (by decide)
  exact .trans _ _ _ (.rel _ _ recast) (.trans _ _ _ (.rel _ _ addUnknown)
    (.trans _ _ _ (.rel _ _ addOther) (.rel _ _ permute)))

def repeatedMembers : List Node :=
  [pairAt 13 9 (wordAt 13 4) (stringAt .value 19 3),
    pairAt 24 11 (stringAt .key 24 6) (stringAt .value 32 3)]

def repeatedOptions : Source :=
  optionsPage "\x7b name: 'x', 'name': 'y' \x7d"

/-- A restyled file has the choices that it had; one in which a key comes twice has no routes. -/
theorem entriesOf_options_mapping_restyled :
    (entriesOf plainOptions ImportGraph.sampleConfig).toOption.map (List.map Entry.choices)
        = some [⟨"x", none, "low", ["y"]⟩]
      ∧ (entriesOf restyledOptions ImportGraph.sampleConfig).toOption.map (List.map Entry.choices)
        = some [⟨"x", none, "low", ["y"]⟩]
      ∧ ∃ failure, entriesOf repeatedOptions ImportGraph.sampleConfig = .error failure := by
  obtain ⟨restyled, repeated⟩ := entriesOf_options_mapping ImportGraph.sampleConfig
  have choices : (entriesOf plainOptions ImportGraph.sampleConfig).toOption.map
      (List.map Entry.choices) = some [⟨"x", none, "low", ["y"]⟩] := by
    rw [plainOptions, optionsPage_ofList]
    decide +kernel
  obtain ⟨c, object, plain, name, count, arguments, kind, members⟩ :=
    exists_optionsClass plainOptions "A" plainMembers
      (by rw [plainOptions, optionsPage_ofList]; decide +kernel)
  obtain ⟨d, object', new, name', count', arguments', kind', members'⟩ :=
    exists_optionsClass restyledOptions "A" restyledMembers
      (by rw [restyledOptions, optionsPage_ofList]; decide +kernel)
  obtain ⟨again, twice, classes, -, -, both, literal, keys⟩ :=
    exists_optionsClass repeatedOptions "A" repeatedMembers
      (by rw [repeatedOptions, optionsPage_ofList]; decide +kernel)
  refine ⟨choices, (restyled _ _ ?_).trans choices, ?_⟩
  · rw [plain, new]
    refine .cons ⟨by rw [name, name'], by rw [count, count'], ?_⟩ .nil
    rw [arguments, arguments']
    refine .options kind kind' ?_
    rw [members, members']
    exact restyled_options
  · refine ((repeated repeatedOptions again (by rw [classes]; exact .head _) twice both
      literal).2 ?_).2
    rw [keys]
    decide

/-- **A key is not the name that it denotes.** A quoted key that is no option is read as one without
the quote in it; a name is given twice and the escape in one of the keys hides it; and a class in a
method of the options is one of the file's. -/
theorem entriesOf_reads_keys_as_written :
    let choices (options : String) :=
      (entriesOf (optionsPage options) ImportGraph.sampleConfig).toOption.map
        (List.map Entry.choices)
    let keys (options : String) :=
      (optionMembers (optionsPage options)).map fun member =>
        (member.child? .key).map (optionsPage options).textOf
    choices "\x7b\x7d" = some [⟨"A", none, "low", []⟩]
    ∧ keys "\x7b \"na'me\": 'x' \x7d" = [some "\"na'me\""]
    ∧ evaluate? "\"na'me\"".toList = some (unitsOf "na'me".toList)
    ∧ "na'me" ∉ optionKeys
    ∧ choices "\x7b \"na'me\": 'x' \x7d" = some [⟨"x", none, "low", []⟩]
    ∧ keys "\x7b 'na\\u006de': 'x', 'name': 'y' \x7d" = [some "'na\\u006de'", some "'name'"]
    ∧ evaluate? "'na\\u006de'".toList = evaluate? "'name'".toList
    ∧ choices "\x7b 'na\\u006de': 'x', 'name': 'y' \x7d" = some [⟨"y", none, "low", []⟩]
    ∧ choices "\x7b m() \x7b @IonicPage('x') class B \x7b\x7d \x7d \x7d" = none := by
  intro choices keys
  simp only [choices, keys]
  refine ⟨?_, ?_, by decide +kernel, by decide, ?_, ?_, by decide +kernel, ?_, ?_⟩ <;>
    (rw [optionsPage_ofList]; decide +kernel)

end RouteTrim.Route
