import RouteTrim.Proofs.Route.Extract
import RouteTrim.Proofs.Route.Meaning
import Mathlib.Data.List.Perm.Basic
import Mathlib.Logic.Relation

/-!
# What the options of a route depend on

The options of an annotation are a mapping from keys to values, and nothing else of the object
literal counts: not the order of its members, not the comments in it, not the members that are no
properties or have other keys, and not how a key is spelled. `Move` has one case for each of these,
and a move keeps the mapping. `readChoices_eq_ok` says which options can be read, and what they say.

A key is what is read as one. Quotes and outer blanks are taken from a quoted key and its escapes
stay, so two keys that are the same name may be read as different ones, and two names as one key.
-/

set_option autoImplicit false

namespace RouteTrim.Route

open RouteTrim.Settings (BuildConfig)
open RouteTrim.Text
open RouteTrim.Tree

/-! ## Outcomes -/

section

variable {α β γ : Type}

theorem toOption_bind (x : Except Failure α) (f : α → Except Failure β) :
    (x >>= f).toOption = x.toOption.bind fun a => (f a).toOption := by
  cases x <;> rfl

theorem toOption_map (f : α → β) (x : Except Failure α) :
    (f <$> x).toOption = x.toOption.map f := by
  cases x <;> rfl

theorem map_mapM (f : α → Except Failure β) (g : β → γ) (as : List α) :
    List.map g <$> as.mapM f = as.mapM fun a => g <$> f a := by
  induction as with
  | nil => rfl
  | cons a as ih => simp only [List.mapM_cons, map_bind, map_pure, ← ih, bind_map_left,
      List.map_cons]

/-- Two computations over lists have the same outcome if they do for each pair of items. -/
theorem toOption_mapM_eq {R : α → β → Prop} {f : α → Except Failure γ} {g : β → Except Failure γ}
    {as : List α} {bs : List β} (pairs : List.Forall₂ R as bs)
    (agree : ∀ a b, R a b → (g b).toOption = (f a).toOption) :
    (bs.mapM g).toOption = (as.mapM f).toOption := by
  induction pairs with
  | nil => rfl
  | cons pair _ ih =>
    rw [List.mapM_cons, List.mapM_cons, toOption_bind, toOption_bind, agree _ _ pair]
    simp only [toOption_bind, ih]

end

/-- What the options of a route decide. -/
structure Choices where
  name : String
  segment : Option String
  priority : String
  history : List String
  deriving DecidableEq, Repr

/-- The choices in an entry. -/
def Entry.choices (entry : Entry) : Choices :=
  ⟨entry.name, entry.segment, entry.priority, entry.history⟩

def readChoices (source : Source) (className : String) (options : Options) :
    Except Failure Choices := do
  let name ← readName source className options
  let segment ← readSegment source className options
  let priority ← readPriority source className options
  let history ← readHistory source className options
  return ⟨name, segment, priority, history⟩

theorem choices_readEntry (source : Source) (c : AnnotatedClass) :
    Entry.choices <$> readEntry source c
      = readOptions source c >>= readChoices source c.className := by
  unfold readEntry readChoices
  simp only [map_bind, map_pure]
  rfl

/-! ## The same code in two files -/

section

variable (a b : Source)

/-- Two nodes with the same code. -/
structure SameCode (x y : Node) : Prop where
  kind : y.kind = x.kind
  text : b.textOf y = a.textOf x
  parts : y.children.map Node.kind = x.children.map Node.kind

/-- Two values with the same code; in arrays, comments may stand between the elements. -/
inductive SameValue (x y : Node) : Prop
  | code : x.kind ≠ .array → SameCode a b x y → SameValue x y
  | array : x.kind = .array → y.kind = .array →
      List.Forall₂ (SameCode a b) x.children y.children → SameValue x y

/-- A word that may be a key without quotes: it has no quotes and no blanks. -/
def IsKeyWord (word : List Char) : Prop :=
  ∀ c ∈ word, isQuote c = false ∧ isBlank c = false

/-- A key is written as a word, or as that word in quotes. -/
inductive SpellsKey (source : Source) (word : List Char) (key : Node) : Prop
  | bare : key.kind ≠ .string → source.textOf key = String.ofList word → SpellsKey source word key
  | quoted {mark : Char} : isQuote mark = true → key.kind = .string →
      source.textOf key = String.ofList (mark :: (word ++ [mark])) → SpellsKey source word key

/-- Two keys with the same code, or with the same word in quotes or not. -/
inductive SameKey (x y : Node) : Prop
  | code : SameCode a b x y → SameKey x y
  | word {word : List Char} : IsKeyWord word → SpellsKey a word x → SpellsKey b word y → SameKey x y

/-- Two members with the same key and the same value, whatever stands around these. -/
inductive SameMember (x y : Node) : Prop
  | pair {key key' value value' : Node} : x.kind = .pair → y.kind = .pair →
      x.child? .key = some key → y.child? .key = some key' → SameKey a b key key' →
      x.child? .value = some value → y.child? .value = some value' → SameValue a b value value' →
      SameMember x y
  | shorthand : x.kind = .shorthandProperty → SameCode a b x y → SameMember x y
  | noOption : property? a x = none → property? b y = none → SameMember x y

end

instance (a b : Source) (x y : Node) : Decidable (SameCode a b x y) :=
  decidable_of_iff (_ ∧ _ ∧ _) ⟨fun ⟨kind, text, parts⟩ => ⟨kind, text, parts⟩,
    fun ⟨kind, text, parts⟩ => ⟨kind, text, parts⟩⟩

instance : DecidablePred IsKeyWord := fun word =>
  List.decidableBAll (fun c => isQuote c = false ∧ isBlank c = false) word

section

variable {a b source : Source} {x y : Node}

theorem SameCode.refl (x : Node) : SameCode source source x x :=
  ⟨rfl, rfl, rfl⟩

theorem SameValue.refl (x : Node) : SameValue source source x x := by
  by_cases array : x.kind = .array
  · exact .array array array (List.forall₂_same.2 fun element _ => .refl element)
  · exact .code array (.refl x)

theorem SameValue.kind (h : SameValue a b x y) : y.kind = x.kind := by
  cases h with
  | code _ code => exact code.kind
  | array hx hy _ => rw [hx, hy]

theorem literalText_eq (source : Source) (x : Node) :
    source.literalText x = String.ofList (stripped (source.textOf x).toList) := by
  rw [Source.literalText, Source.textOf, String.toList_ofList, stripped]

theorem SameCode.literalText (h : SameCode a b x y) : b.literalText y = a.literalText x := by
  rw [literalText_eq, literalText_eq, h.text]

theorem SameCode.isStringLike (h : SameCode a b x y) : y.isStringLike = x.isStringLike := by
  have pieces (node : Node) :
      (node.children.any fun child => child.kind == .templateSubstitution)
        = (node.children.map Node.kind).any fun kind => kind == .templateSubstitution := by
    rw [List.any_map]
    rfl
  unfold Node.isStringLike
  rw [h.kind, pieces, pieces, h.parts]

theorem stripped_quoted {mark : Char} {word : List Char} (quote : isQuote mark = true)
    (plain : IsKeyWord word) : stripped (mark :: (word ++ [mark])) = word := by
  have kept : word.filter (fun c => !isQuote c) = word :=
    List.filter_eq_self.2 fun c hc => by rw [(plain c hc).1]; rfl
  have trimmed : trim word = word :=
    trim_eq_self (fun c hc => (plain c (List.mem_of_mem_head? hc)).2)
      (fun c hc => (plain c (List.mem_of_mem_getLast? hc)).2)
  simp [stripped, quote, kept, trimmed]

theorem SpellsKey.propertyKey {word : List Char} (h : SpellsKey source word x)
    (plain : IsKeyWord word) : source.propertyKey x = String.ofList word := by
  unfold Source.propertyKey
  cases h with
  | bare kind text => rw [beq_false_of_ne kind, if_neg (by decide), text]
  | quoted quote kind text =>
    rw [kind, if_pos (by decide), literalText_eq, text, String.toList_ofList,
      stripped_quoted quote plain]

theorem SameKey.propertyKey (h : SameKey a b x y) : b.propertyKey y = a.propertyKey x := by
  cases h with
  | code code =>
    unfold Source.propertyKey
    rw [code.kind, code.literalText, code.text]
  | word plain hx hy => rw [hx.propertyKey plain, hy.propertyKey plain]

end

/-! ## Values of options -/

section

variable {a b : Source} {className : String}

theorem readText_same (option : String) {x y : Node} (h : SameValue a b x y) :
    (readText b className option y).toOption = (readText a className option x).toOption := by
  unfold readText
  rw [h.kind]
  by_cases composite : isComposite x.kind = true
  · rw [if_pos composite, if_pos composite]
    rfl
  · rw [if_neg composite, if_neg composite]
    cases h with
    | code _ code => rw [code.literalText]
    | array array _ _ => exact absurd (by rw [array]; rfl) composite

theorem readHistoryElement_same {x y : Node} (h : SameCode a b x y) :
    (readHistoryElement b className y).toOption = (readHistoryElement a className x).toOption := by
  unfold readHistoryElement
  rw [h.isStringLike, h.literalText]
  split <;> rfl

/-- The keys of the options that a route annotation takes. -/
def optionKeys : List String :=
  ["name", "segment", "priority", "defaultHistory"]

/-- Options with the same values under the keys that a route annotation takes. -/
def SameOptions (a b : Source) (options options' : Options) : Prop :=
  ∀ key ∈ optionKeys, Option.Rel (SameValue a b) (options.lookup key) (options'.lookup key)

theorem SameOptions.refl (options : Options) : SameOptions a a options options := by
  intro key _
  cases options.lookup key with
  | none => exact .none
  | some value => exact .some (.refl value)

/-- **The choices depend on the mapping from keys to values only**, and only on the keys that are
known. -/
theorem readChoices_same {options options' : Options} (h : SameOptions a b options options') :
    (readChoices b className options').toOption = (readChoices a className options).toOption := by
  have name : (readName b className options').toOption
      = (readName a className options).toOption := by
    unfold readName
    rcases optionRel_cases (h "name" (by decide)) with ⟨hx, hy⟩ | ⟨x, y, hx, hy, value⟩
    · rw [hx, hy]
    · rw [hx, hy]
      exact readText_same "name" value
  have segment : (readSegment b className options').toOption
      = (readSegment a className options).toOption := by
    unfold readSegment
    rcases optionRel_cases (h "segment" (by decide)) with ⟨hx, hy⟩ | ⟨x, y, hx, hy, value⟩
    · rw [hx, hy]
    · rw [hx, hy]
      dsimp only
      rw [value.kind]
      split
      · rfl
      · rw [toOption_map, toOption_map, readText_same "segment" value]
  have priority : (readPriority b className options').toOption
      = (readPriority a className options).toOption := by
    unfold readPriority
    rcases optionRel_cases (h "priority" (by decide)) with ⟨hx, hy⟩ | ⟨x, y, hx, hy, value⟩
    · rw [hx, hy]
    · rw [hx, hy]
      dsimp only
      rw [toOption_bind, toOption_bind, readText_same "priority" value]
      congr 1
      funext priority
      split <;> rfl
  have history : (readHistory b className options').toOption
      = (readHistory a className options).toOption := by
    unfold readHistory
    rcases optionRel_cases (h "defaultHistory" (by decide)) with ⟨hx, hy⟩ | ⟨x, y, hx, hy, value⟩
    · rw [hx, hy]
    · rw [hx, hy]
      dsimp only
      cases value with
      | code array code =>
        rw [code.kind, beq_false_of_ne array]
        rfl
      | array hx hy elements =>
        rw [hx, hy]
        exact toOption_mapM_eq elements fun _ _ => readHistoryElement_same
  unfold readChoices
  simp only [toOption_bind, name, segment, priority, history]

end

/-! ## What the options say -/

/-- Options of the kinds that a route takes under the keys that are known. -/
structure Fit (source : Source) (options : Options) : Prop where
  name : ∀ value ∈ options.lookup "name", isComposite value.kind = false
  segment : ∀ value ∈ options.lookup "segment", isComposite value.kind = false
  priority : ∀ value ∈ options.lookup "priority",
    isComposite value.kind = false ∧ source.literalText value ∈ priorities
  history : ∀ value ∈ options.lookup "defaultHistory",
    value.kind = .array ∧ ∀ element ∈ value.children, element.isStringLike = true

/-- The choices that fit options make, each with its default. -/
def choicesOf (source : Source) (className : String) (options : Options) : Choices where
  name := ((options.lookup "name").map source.literalText).getD className
  segment := (options.lookup "segment").bind fun value =>
    if isNothing value.kind then none else some (source.literalText value)
  priority := ((options.lookup "priority").map source.literalText).getD "low"
  history := ((options.lookup "defaultHistory").map fun value =>
    value.children.map source.literalText).getD []

section

variable {source : Source} {className : String} {options : Options}

theorem readText_eq_ok (option : String) {value : Node} {text : String} :
    readText source className option value = .ok text
      ↔ isComposite value.kind = false ∧ source.literalText value = text := by
  unfold readText
  cases isComposite value.kind <;> simp

theorem readName_eq_ok {name : String} : readName source className options = .ok name
    ↔ (∀ value ∈ options.lookup "name", isComposite value.kind = false)
      ∧ ((options.lookup "name").map source.literalText).getD className = name := by
  unfold readName
  cases options.lookup "name" with
  | none => simp
  | some value => simp [readText_eq_ok]

theorem isComposite_of_isNothing {kind : Kind} (h : isNothing kind = true) :
    isComposite kind = false := by
  cases kind <;> first | rfl | cases h

theorem readSegment_eq_ok {segment : Option String} :
    readSegment source className options = .ok segment
      ↔ (∀ value ∈ options.lookup "segment", isComposite value.kind = false)
        ∧ ((options.lookup "segment").bind fun value =>
          if isNothing value.kind then none else some (source.literalText value)) = segment := by
  unfold readSegment
  cases options.lookup "segment" with
  | none => simp
  | some value =>
    by_cases nothing : isNothing value.kind = true
    · simp [nothing, isComposite_of_isNothing nothing]
    · have text : some <$> readText source className "segment" value = .ok segment
          ↔ ∃ text, readText source className "segment" value = .ok text ∧ some text = segment := by
        cases readText source className "segment" value <;> simp
      simp [nothing, text, readText_eq_ok]

theorem readPriority_eq_ok {priority : String} :
    readPriority source className options = .ok priority
      ↔ (∀ value ∈ options.lookup "priority",
          isComposite value.kind = false ∧ source.literalText value ∈ priorities)
        ∧ ((options.lookup "priority").map source.literalText).getD "low" = priority := by
  unfold readPriority
  cases options.lookup "priority" with
  | none => simp
  | some value =>
    simp only [bind_eq_ok, readText_eq_ok]
    constructor
    · rintro ⟨text, ⟨plain, rfl⟩, known⟩
      split at known
      · next listed =>
        obtain rfl := Except.ok.inj known
        simp [plain, listed]
      · cases known
    · rintro ⟨fit, rfl⟩
      obtain ⟨plain, listed⟩ := fit value rfl
      exact ⟨_, ⟨plain, rfl⟩, if_pos listed⟩

theorem readHistoryElement_eq_ok {element : Node} {text : String} :
    readHistoryElement source className element = .ok text
      ↔ element.isStringLike = true ∧ source.literalText element = text := by
  unfold readHistoryElement
  cases element.isStringLike <;> simp

theorem readHistory_eq_ok {history : List String} :
    readHistory source className options = .ok history
      ↔ (∀ value ∈ options.lookup "defaultHistory",
          value.kind = .array ∧ ∀ element ∈ value.children, element.isStringLike = true)
        ∧ ((options.lookup "defaultHistory").map fun value =>
          value.children.map source.literalText).getD [] = history := by
  unfold readHistory
  cases options.lookup "defaultHistory" with
  | none => simp
  | some value =>
    by_cases array : value.kind = .array
    · have texts : List.Forall₂ (fun element text => source.literalText element = text)
          value.children history ↔ value.children.map source.literalText = history := by
        rw [← List.forall₂_eq_eq_eq, List.forall₂_map_left_iff]
      simp only [array, beq_self_eq_true, if_true, mapM_eq_ok, readHistoryElement_eq_ok,
        List.forall₂_and_left]
      simp [array, texts]
    · simp [array]

/-- **Options are read exactly if they are fit**, and then each choice is what is said under its
key, or the default. -/
theorem readChoices_eq_ok {choices : Choices} : readChoices source className options = .ok choices
    ↔ Fit source options ∧ choices = choicesOf source className options := by
  unfold readChoices
  simp only [bind_eq_ok, readName_eq_ok, readSegment_eq_ok, readPriority_eq_ok, readHistory_eq_ok]
  constructor
  · rintro ⟨_, ⟨name, rfl⟩, _, ⟨segment, rfl⟩, _, ⟨priority, rfl⟩, _, ⟨history, rfl⟩, made⟩
    exact ⟨⟨name, segment, priority, history⟩, (Except.ok.inj made).symm⟩
  · rintro ⟨⟨name, segment, priority, history⟩, rfl⟩
    exact ⟨_, ⟨name, rfl⟩, _, ⟨segment, rfl⟩, _, ⟨priority, rfl⟩, _, ⟨history, rfl⟩, rfl⟩

end

/-! ## Object literals -/

/-- The key and the value of a property. -/
def optionOf (property : Property) : String × Node :=
  (property.key, property.value)

/-- An object literal: its file and its members. -/
structure ObjectLiteral where
  source : Source
  members : List Node

namespace ObjectLiteral

/-- The options that the members are. -/
def options (literal : ObjectLiteral) : Options :=
  (literal.members.filterMap (property? literal.source)).map optionOf

/-- The keys of the members, as they are read. -/
def keys (literal : ObjectLiteral) : List String :=
  literal.options.map Prod.fst

end ObjectLiteral

theorem lookup_isSome {options : Options} {key : String} :
    (options.lookup key).isSome = true ↔ key ∈ options.map Prod.fst := by
  induction options with
  | nil => simp
  | cons option options ih =>
    rw [List.lookup_cons, List.map_cons, List.mem_cons, ← ih]
    split <;> simp_all

theorem lookup_eq_some {options : Options} (distinct : (options.map Prod.fst).Nodup) {key : String}
    {value : Node} : options.lookup key = some value ↔ (key, value) ∈ options := by
  induction options with
  | nil => simp
  | cons option options ih =>
    obtain ⟨name, node⟩ := option
    obtain ⟨new, distinct⟩ := List.nodup_cons.1 distinct
    rw [List.lookup_cons, List.mem_cons, Prod.mk.injEq, ← ih distinct]
    by_cases own : key = name
    · subst own
      have absent : options.lookup key ≠ some value := fun found =>
        new (lookup_isSome.1 (by rw [found]; rfl))
      simp [absent, eq_comm]
    · simp [own, beq_false_of_ne own]

theorem lookup_perm {options options' : Options} (perm : options.Perm options')
    (distinct : (options.map Prod.fst).Nodup) (key : String) :
    options.lookup key = options'.lookup key := by
  refine Option.ext fun value => ?_
  rw [lookup_eq_some distinct, lookup_eq_some ((perm.map Prod.fst).nodup_iff.1 distinct),
    perm.mem_iff]

/-- Properties with distinct keys are the options; else the fault names a key that comes again. -/
theorem distinctOptions_cases (className path : String) (properties : List Property)
    {options : Options} (distinct : (options.map Prod.fst).Nodup) :
    let all := options ++ properties.map optionOf
    ((all.map Prod.fst).Nodup ∧ distinctOptions className path properties options = .ok all)
      ∨ ∃ key, 1 < (all.map Prod.fst).count key ∧
        distinctOptions className path properties options
          = .error (.repeatedOption key className path) := by
  induction properties generalizing options with
  | nil => simpa [distinctOptions] using distinct
  | cons property properties ih =>
    have whole : options ++ (property :: properties).map optionOf
        = (options ++ [optionOf property]) ++ properties.map optionOf := by simp
    unfold distinctOptions
    rw [whole]
    by_cases again : (options.lookup property.key).isSome = true
    · rw [if_pos again]
      refine .inr ⟨property.key, ?_, rfl⟩
      have first : 0 < (options.map Prod.fst).count property.key :=
        List.count_pos_iff.2 (lookup_isSome.1 again)
      simp only [List.map_append, List.count_append, List.map_cons, List.map_nil, optionOf,
        List.count_singleton_self]
      omega
    · rw [if_neg again]
      refine ih ?_
      rw [List.map_append, List.nodup_append]
      refine ⟨distinct, by simp, ?_⟩
      rintro key hkey _ new rfl
      obtain rfl : key = property.key := by simpa [optionOf] using new
      exact again (lookup_isSome.2 hkey)

/-! ## Moves -/

/-- A change of an object literal after which its options are the same mapping. Members come first
where one is added; it may be moved. -/
inductive Move : ObjectLiteral → ObjectLiteral → Prop
  /-- Comments come and go, the literal is moved to another place, keys are spelled another way. -/
  | recast {a b : Source} {xs ys : List Node} : List.Forall₂ (SameMember a b) xs ys →
      Move ⟨a, xs⟩ ⟨b, ys⟩
  | permute {a : Source} {xs ys : List Node} : xs.Perm ys → Move ⟨a, xs⟩ ⟨a, ys⟩
  /-- A method or a spread is added. -/
  | addOther {a : Source} {x : Node} {xs : List Node} :
      x.kind ≠ .pair → x.kind ≠ .shorthandProperty → Move ⟨a, xs⟩ ⟨a, x :: xs⟩
  | addUnknown {a : Source} {x : Node} {xs : List Node} {property : Property} :
      property? a x = some property → property.key ∉ optionKeys →
      property.key ∉ ObjectLiteral.keys ⟨a, xs⟩ → Move ⟨a, xs⟩ ⟨a, x :: xs⟩

section

variable {a b : Source} {x y : Node}

theorem SameMember.property? (h : SameMember a b x y) :
    Option.Rel (PropertyPair (SameValue a b)) (property? a x) (property? b y) := by
  cases h with
  | pair kind kind' key key' sameKey value value' sameValue =>
    unfold Route.property?
    rw [kind, kind']
    dsimp only
    rw [key, key', value, value']
    exact .some ⟨sameKey.propertyKey, sameValue⟩
  | shorthand kind code =>
    unfold Route.property?
    rw [code.kind, kind]
    exact .some ⟨code.text, .code (by rw [kind]; decide) code⟩
  | noOption old new =>
    rw [old, new]
    exact .none

theorem property?_eq_none (pair : x.kind ≠ .pair) (shorthand : x.kind ≠ .shorthandProperty) :
    property? a x = none := by
  unfold property?
  split
  · contradiction
  · contradiction
  · rfl

/-- Literals with the same mapping: both have distinct keys or neither, and the values under known
keys are the same. -/
structure SameMapping (literal literal' : ObjectLiteral) : Prop where
  distinct : literal'.keys.Nodup ↔ literal.keys.Nodup
  options : literal.keys.Nodup →
    SameOptions literal.source literal'.source literal.options literal'.options

/-- **A move keeps the mapping.** -/
theorem Move.sameMapping {literal literal' : ObjectLiteral} (h : Move literal literal') :
    SameMapping literal literal' := by
  cases h with
  | @recast a b xs ys members =>
    have properties : List.Forall₂ (PropertyPair (SameValue a b)) (xs.filterMap (property? a))
        (ys.filterMap (property? b)) := List.rel_filterMap (fun _ _ h => h) (members.imp
          fun _ _ h => h.property?)
    have options : List.Forall₂ (fun old new => new.1 = old.1 ∧ SameValue a b old.2 new.2)
        (ObjectLiteral.options ⟨a, xs⟩) (ObjectLiteral.options ⟨b, ys⟩) :=
      List.rel_map (fun _ _ pair => ⟨pair.key, pair.value⟩) properties
    have keys : ObjectLiteral.keys ⟨b, ys⟩ = ObjectLiteral.keys ⟨a, xs⟩ := by
      unfold ObjectLiteral.keys
      rw [← List.forall₂_eq_eq_eq]
      exact List.rel_map (fun _ _ pair => pair.1) options.flip
    exact ⟨by rw [keys], fun _ key _ => lookup_rel options key⟩
  | @permute a xs ys perm =>
    have options : (ObjectLiteral.options ⟨a, xs⟩).Perm (ObjectLiteral.options ⟨a, ys⟩) :=
      (perm.filterMap _).map _
    refine ⟨(options.map Prod.fst).nodup_iff.symm, fun distinct key known => ?_⟩
    rw [lookup_perm options distinct]
    exact SameOptions.refl _ key known
  | @addOther a x xs pair shorthand =>
    have options : ObjectLiteral.options ⟨a, x :: xs⟩ = ObjectLiteral.options ⟨a, xs⟩ := by
      rw [ObjectLiteral.options, List.filterMap_cons_none (property?_eq_none pair shorthand)]
      rfl
    refine ⟨by rw [ObjectLiteral.keys, options]; rfl, fun _ => ?_⟩
    rw [options]
    exact SameOptions.refl _
  | @addUnknown a x xs property found unknown new =>
    have options : ObjectLiteral.options ⟨a, x :: xs⟩
        = optionOf property :: ObjectLiteral.options ⟨a, xs⟩ := by
      rw [ObjectLiteral.options, List.filterMap_cons_some found, List.map_cons]
      rfl
    have keys : ObjectLiteral.keys ⟨a, x :: xs⟩
        = property.key :: ObjectLiteral.keys ⟨a, xs⟩ := by
      rw [ObjectLiteral.keys, options]
      rfl
    refine ⟨by rw [keys, List.nodup_cons]; exact and_iff_right new, fun _ key known => ?_⟩
    have other : (key == property.key) = false :=
      beq_false_of_ne fun same => unknown (same ▸ known)
    rw [options, optionOf, List.lookup_cons, other]
    exact SameOptions.refl _ key known

end

end RouteTrim.Route
