import RouteTrim.Proofs.Failure
import RouteTrim.Proofs.Graph.Pruning
import RouteTrim.Proofs.Route.RegistryText
import RouteTrim.Proofs.Route.Writing
import RouteTrim.Proofs.Tree.StringValue
import RouteTrim.Route.Discovery

/-!
# What the literals of a registry evaluate to

An annotation gives texts as string literals, and a registry hands them on as literals of its own.
Between the two stands the text without quotes and outer blanks, as it is written in the file: its
escapes are not evaluated, and the backslash of each is escaped when it is written. So the registry
says what the annotation says where the annotation has no escapes, and something else wherever it
has one. Quotes and outer blanks are the only other things that are lost.
-/

set_option autoImplicit false

namespace RouteTrim.Route

open RouteTrim.Path (WorkingFolder)
open RouteTrim.Settings (BuildConfig)
open RouteTrim.Text
open RouteTrim.Tree (Node Parser Source)
open RouteTrim.Tree.StringValue

/-! ## One literal -/

/-- A value without quotes, and with no blank at either end. -/
structure Bare (value : List Nat) : Prop where
  unquoted : ∀ unit ∈ value, isQuote (Char.ofNat unit) = false
  head : ∀ unit ∈ value.head?, isBlank (Char.ofNat unit) = false
  last : ∀ unit ∈ value.getLast?, isBlank (Char.ofNat unit) = false

instance : DecidablePred Bare := fun _ =>
  decidable_of_iff (_ ∧ _ ∧ _) ⟨fun ⟨unquoted, head, last⟩ => ⟨unquoted, head, last⟩,
    fun ⟨unquoted, head, last⟩ => ⟨unquoted, head, last⟩⟩

theorem bodyUnits?_quoted (s : List Char) {value : List Nat} :
    bodyUnits? singleQuote (s.flatMap quoteChar ++ [singleQuote]) = some value
      ↔ (∀ c ∈ s, c ≠ '\r' ∧ c ≠ '\n') ∧ unitsOf s = value := by
  induction s generalizing value with
  | nil => simp
  | cons c s ih =>
    rw [List.flatMap_cons, List.append_assoc, List.forall_mem_cons, unitsOf_cons]
    by_cases special : c = backslash ∨ c = singleQuote
    · have own (tail : List Char) : escape? (c :: tail) = some (units c.toNat, tail) := by
        rcases special with rfl | rfl <;> rfl
      have oneLine : c ≠ '\r' ∧ c ≠ '\n' := by
        rcases special with rfl | rfl <;> decide
      have sign : backslash ≠ singleQuote := by decide
      rw [quoteChar, if_pos special]
      simp [bodyUnits?_escape sign (own _), ih, oneLine, and_assoc]
    · obtain ⟨plain, other⟩ := not_or.1 special
      rw [quoteChar, if_neg special]
      by_cases line : c = '\n' ∨ c = '\r'
      · have : ¬(c ≠ '\r' ∧ c ≠ '\n') := fun h => line.elim h.2 h.1
        simp [bodyUnits?_line other line, this]
      · have oneLine : c ≠ '\r' ∧ c ≠ '\n' := ⟨fun h => line (.inr h), fun h => line (.inl h)⟩
        simp [bodyUnits?_plain other line plain, ih, oneLine, and_assoc]

/-- **A text that is written as a literal is the value of that literal**, if it stands on one line;
else the literal is none. -/
theorem evaluate?_quote (s : String) {value : List Nat} :
    evaluate? (quote s) = some value ↔ OneLine s ∧ unitsOf s.toList = value :=
  bodyUnits?_quoted s.toList

/-! ## Bare values -/

/-- What is left of a literal's text. -/
def stripped (literal : List Char) : List Char :=
  trim (literal.filter fun c => !isQuote c)

theorem visible_stripped (literal : List Char) :
    visible (unitsOf (stripped literal)) = visible (unitsOf literal) := by
  rw [stripped, visible_trim, visible_filter_isQuote]

theorem Bare.not_isQuote {s : List Char} (bare : Bare (unitsOf s)) :
    ∀ c ∈ s, isQuote c = false := by
  intro c hc
  refine Bool.eq_false_iff.2 fun quote => ?_
  have unit : c.toNat ∈ unitsOf s := by
    refine List.mem_flatMap.2 ⟨c, hc, ?_⟩
    rw [units_of_lt (toNat_lt_of_isQuote quote)]
    exact List.mem_singleton_self _
  have := bare.unquoted _ unit
  rw [Char.ofNat_toNat, quote] at this
  exact absurd this (by decide)

theorem dropWhile_eq_self {p : Char → Bool} {s : List Char}
    (h : ∀ c ∈ s.head?, p c = false) : s.dropWhile p = s := by
  cases s with
  | nil => rfl
  | cons c s => exact List.dropWhile_cons_of_neg (Bool.eq_false_iff.1 (h c rfl))

theorem trim_eq_self {s : List Char} (head : ∀ c ∈ s.head?, isBlank c = false)
    (last : ∀ c ∈ s.getLast?, isBlank c = false) : trim s = s := by
  rw [trim, dropWhile_eq_self head, dropRightWhile, dropWhile_eq_self, List.reverse_reverse]
  rwa [List.head?_reverse]

theorem Bare.trim_eq_self {s : List Char} (bare : Bare (unitsOf s)) : trim s = s := by
  refine Route.trim_eq_self (fun c hc => ?_) (fun c hc => ?_) <;>
    refine Bool.eq_false_iff.2 fun blank => ?_
  · obtain ⟨back, rfl⟩ := List.head?_eq_some_iff.1 hc
    have := bare.head c.toNat (by rw [unitsOf_cons, units_of_lt (toNat_lt_of_isBlank blank)]; rfl)
    rw [Char.ofNat_toNat, blank] at this
    exact absurd this (by decide)
  · obtain ⟨front, rfl⟩ := List.getLast?_eq_some_iff.1 hc
    have := bare.last c.toNat (by
      rw [unitsOf_append, unitsOf_cons, units_of_lt (toNat_lt_of_isBlank blank)]
      simp)
    rw [Char.ofNat_toNat, blank] at this
    exact absurd this (by decide)

/-- **The literal that a text is handed on by has the value that it had, exactly if it was written
without an escape.** Its quotes and outer blanks must not belong to the value. -/
theorem evaluate?_quote_stripped {literal : List Char} {value : List Nat}
    (evaluated : evaluate? literal = some value) (bare : Bare value) :
    evaluate? (quote (String.ofList (stripped literal))) = some value ↔ backslash ∉ literal := by
  rw [evaluate?_quote, String.toList_ofList]
  obtain ⟨mark, s, rfl, marks, evaluated⟩ := evaluate?_eq_some.1 evaluated
  have unmarked : mark ≠ backslash := by rcases marks with rfl | rfl <;> decide
  have quotes : isQuote mark = true := by rcases marks with rfl | rfl <;> rfl
  constructor
  · -- The text that is handed on keeps the visible units of the literal, an escape loses some.
    rintro ⟨-, rfl⟩ escaped
    have fewer := (visible_bodyUnits? unmarked s evaluated).2
      ((List.mem_cons.1 escaped).resolve_left unmarked.symm)
    rw [visible_stripped, unitsOf_cons, visible_append] at fewer
    rw [visible_units_of_isQuote quotes] at fewer
    omega
  · intro unescaped
    obtain ⟨body, rfl, rfl, oneLine⟩ := bodyUnits?_of_unescaped mark s evaluated
      fun escaped => unescaped (.tail _ escaped)
    have kept : body.filter (fun c => !isQuote c) = body :=
      List.filter_eq_self.2 fun c hc => by rw [bare.not_isQuote c hc]; rfl
    have whole : stripped (mark :: (body ++ [mark])) = body := by
      simp [stripped, quotes, kept, bare.trim_eq_self]
    rw [whole]
    refine ⟨fun c hc => ?_, rfl⟩
    rw [String.toList_ofList] at hc
    exact (oneLine c hc).symm

/-! ## The fields of a route -/

/-- A literal hands on the value of a node, exactly if the node is written without an escape. -/
def HandsOn (source : Source) (node : Node) (literal : List Char) : Prop :=
  ∀ value, evaluate? (source.textOf node).toList = some value → Bare value →
    (evaluate? literal = some value ↔ backslash ∉ (source.textOf node).toList)

theorem handsOn_literalText (source : Source) (node : Node) :
    HandsOn source node (quote (source.literalText node)) := by
  intro value evaluated bare
  have text : source.literalText node
      = String.ofList (stripped (source.textOf node).toList) := by
    rw [Source.literalText, Source.textOf, String.toList_ofList, stripped]
  rw [text]
  exact evaluate?_quote_stripped evaluated bare

/-- What the literals in a link's text (`Link.chars_writing`) have to do with the options of an
annotation that are strings. -/
structure HandsOnOptions (source : Source) (options : Options) (link : Link) : Prop where
  name : ∀ node, options.lookup "name" = some node → node.kind = .string →
    HandsOn source node (quote link.name)
  segment : ∀ node, options.lookup "segment" = some node → node.kind = .string →
    HandsOn source node (segmentText link.segment)
  history : ∀ node, options.lookup "defaultHistory" = some node →
    List.Forall₂ (HandsOn source) node.children (link.history.map quote)

section

variable {source : Source} {className : String} {options : Options} {node : Node}

theorem readText_string (option : String) (string : node.kind = .string) :
    readText source className option node = .ok (source.literalText node) := by
  rw [readText, string]
  rfl

theorem readName_string (given : options.lookup "name" = some node) (string : node.kind = .string) :
    readName source className options = .ok (source.literalText node) := by
  rw [readName, given]
  exact readText_string "name" string

theorem readSegment_string (given : options.lookup "segment" = some node)
    (string : node.kind = .string) :
    readSegment source className options = .ok (some (source.literalText node)) := by
  rw [readSegment, given]
  show (if isNothing node.kind then _ else _) = _
  rw [string, readText_string "segment" string]
  rfl

theorem readHistory_given {history : List String}
    (given : options.lookup "defaultHistory" = some node)
    (read : readHistory source className options = .ok history) :
    List.Forall₂ (fun element text => text = source.literalText element) node.children history := by
  rw [readHistory, given] at read
  dsimp only at read
  split at read
  · refine (mapM_eq_ok.1 read).imp fun element text h => ?_
    unfold readHistoryElement at h
    split at h
    · exact (Except.ok.inj h).symm
    · cases h
  · cases read

theorem handsOnOptions_of_readEntry [WorkingFolder] [Parser] {config : BuildConfig}
    {store : FileStore} {c : AnnotatedClass}
    {entry : Entry} {link : Link} (read : readEntry source c = .ok entry)
    (resolved : entry.resolve config store = .ok link) :
    ∃ options, readOptions source c = .ok options ∧ HandsOnOptions source options link := by
  unfold readEntry at read
  obtain ⟨options, hoptions, read⟩ := bind_eq_ok.1 read
  obtain ⟨name, hname, read⟩ := bind_eq_ok.1 read
  obtain ⟨segment, hsegment, read⟩ := bind_eq_ok.1 read
  obtain ⟨priority, -, read⟩ := bind_eq_ok.1 read
  obtain ⟨history, hhistory, read⟩ := bind_eq_ok.1 read
  obtain rfl := Except.ok.inj read
  obtain ⟨descriptor, rfl⟩ : ∃ descriptor, Entry.link _ descriptor = link := by
    unfold Entry.resolve at resolved
    cases found : Descriptor.resolve config store source.path with
    | error failure => simp [found] at resolved
    | ok descriptor => exact ⟨descriptor, by simpa [found] using resolved⟩
  refine ⟨options, hoptions, ⟨fun node given string => ?_, fun node given string => ?_,
    fun node given => ?_⟩⟩
  · obtain rfl := Except.ok.inj ((readName_string given string).symm.trans hname)
    exact handsOn_literalText source node
  · obtain rfl := Except.ok.inj ((readSegment_string given string).symm.trans hsegment)
    exact handsOn_literalText source node
  · refine List.forall₂_map_right_iff.2 ((readHistory_given given hhistory).imp ?_)
    rintro element text rfl
    exact handsOn_literalText source element

end

/-- **A registry says what the annotations say, but for escapes.** The links of a page source belong
to its annotated classes in order. Of each name, segment and element of a history that is given as a
string, and whose value has neither quotes nor outer blanks, the literal in the link's text has the
same value if the annotation writes it without an escape, and no other string does. -/
theorem pageLinks_handOn [WorkingFolder] [Parser] {store : FileStore} {config : BuildConfig}
    {path content : String}
    {links : List Link} (stored : store.content path = .ok content)
    (found : pageLinks store config path = .ok links) :
    (occursIn config.routeDecorator.toList content.toList = false ∧ links = [])
      ∨ ∃ classes, scan (.ofText content path) config.routeDecorator = .ok classes
        ∧ List.Forall₂ (fun c link => ∃ options, readOptions (.ofText content path) c = .ok options
          ∧ HandsOnOptions (.ofText content path) options link) classes links := by
  unfold pageLinks at found
  obtain ⟨text, htext, found⟩ := bind_eq_ok.1 found
  obtain rfl := Except.ok.inj (stored.symm.trans htext)
  cases named : occursIn config.routeDecorator.toList content.toList with
  | false =>
    rw [named] at found
    exact .inl ⟨rfl, (Except.ok.inj found).symm⟩
  | true =>
    rw [named] at found
    obtain ⟨entries, hentries, hlinks⟩ := bind_eq_ok.1 found
    unfold extract entriesOf at hentries
    obtain ⟨classes, hclasses, hentries⟩ := bind_eq_ok.1 hentries
    refine .inr ⟨classes, hclasses, ?_⟩
    refine (steps_of_mapM_eq_ok hentries hlinks).imp fun c link => ?_
    rintro ⟨entry, read, resolved⟩
    exact handsOnOptions_of_readEntry read resolved

/-- An annotation with an escape in the name and none in the other texts. -/
def escapedAnnotation : String :=
  "@IonicPage(\x7b name: 'caf\\u00e9', segment: \"home\", defaultHistory: ['Login'] \x7d)"

def escapedPage : String :=
  escapedAnnotation ++ " class HomePage \x7b\x7d"

def escapedProject : FileStore :=
  .ofList [("/app/src/home.ts", escapedPage),
    ("/app/src/home.module.ts", "@NgModule(\x7b\x7d) class HomePageModule \x7b\x7d")]

def escapedLink : Link where
  className := "HomePage"
  filePath := "/app/src/home.ts"
  name := "caf\\u00e9"
  segment := some "home"
  history := ["Login"]
  declaration := escapedAnnotation
  modulePath := "../home.module"
  exportName := "HomePageModule"
  moduleFile := "/app/src/home.module.ts"

theorem pageLinks_escapedProject :
    pageLinks escapedProject ImportGraph.sampleConfig "/app/src/home.ts" = .ok [escapedLink] :=
  toOption_eq_some.1 (by decide +kernel)

/-- The links of that page hand on the strings of its annotation. -/
theorem pageLinks_handOn_escaped :
    escapedProject.content "/app/src/home.ts" = .ok escapedPage
      ∧ pageLinks escapedProject ImportGraph.sampleConfig "/app/src/home.ts" = .ok [escapedLink]
      ∧ ∃ c options, readOptions (.ofText escapedPage "/app/src/home.ts") c = .ok options
        ∧ HandsOnOptions (.ofText escapedPage "/app/src/home.ts") options escapedLink := by
  have stored : escapedProject.content "/app/src/home.ts" = .ok escapedPage :=
    toOption_eq_some.1 (by decide +kernel)
  refine ⟨stored, pageLinks_escapedProject, ?_⟩
  rcases pageLinks_handOn stored pageLinks_escapedProject with ⟨-, none⟩ | ⟨classes, -, pairs⟩
  · cases none
  · cases pairs with
    | cons pair _ => exact ⟨_, pair⟩

/-- **The escape in the name is not evaluated.** The annotation says `café`, and the registry spells
the escape out. -/
theorem pageLinks_spells_escape :
    let source := Source.ofText escapedPage "/app/src/home.ts"
    let annotated :=
      scan source ImportGraph.sampleConfig.routeDecorator >>= List.mapM (readOptions source)
    (annotated.toOption.map fun all => all.map fun options =>
        (options.lookup "name").map fun node => (node.kind, source.textOf node))
      = some [some (.string, "'caf\\u00e9'")]
    ∧ evaluate? "'caf\\u00e9'".toList = some (unitsOf "café".toList)
    ∧ Bare (unitsOf "café".toList) ∧ OneLine "café"
    ∧ pageLinks escapedProject ImportGraph.sampleConfig "/app/src/home.ts" = .ok [escapedLink]
    ∧ evaluate? (quote escapedLink.name) = some (unitsOf "caf\\u00e9".toList)
    ∧ unitsOf "caf\\u00e9".toList ≠ unitsOf "café".toList :=
  ⟨by decide +kernel, by decide +kernel, by decide, by decide, pageLinks_escapedProject,
    (evaluate?_quote _).2 ⟨by decide, rfl⟩, by decide⟩

end RouteTrim.Route
