import RouteTrim.Proofs.Graph.Pruning
import RouteTrim.Proofs.Route.Decoration
import RouteTrim.Proofs.Route.Descriptor
import RouteTrim.Proofs.Route.Discovery
import RouteTrim.Proofs.Route.Meaning
import RouteTrim.Proofs.Store.Loading
import RouteTrim.Proofs.Tree.Node

/-!
# The links of a project

What a project's links are is decided in many places: the scanner finds the classes, an annotation
gives or leaves out each option, the descriptor beside the page names the module, and the links are
checked together. `projectLinks_wellFormed` says what holds of every link in the end, and in which
order the links stand.

A name that is not given is the name of the class, as it is written. That it has neither quotes nor
blanks is a matter of the identifiers of the page, and is assumed (`PlainClassNames`).
-/

set_option autoImplicit false

namespace RouteTrim.Route

open RouteTrim.Path (WorkingFolder)
open RouteTrim.Settings (BuildConfig)
open RouteTrim.Text
open RouteTrim.Tree (Node Parser Source)

/-! ## Texts of literals -/

/-- A text without quotes, and with no blank at either end. -/
structure CleanText (text : String) : Prop where
  unquoted : ∀ c ∈ text.toList, isQuote c = false
  head : ∀ c ∈ text.toList.head?, isBlank c = false
  last : ∀ c ∈ text.toList.getLast?, isBlank c = false

-- The characters are gone through as a list; to decide over all characters there are takes too
-- long.
instance (text : String) : Decidable (CleanText text) :=
  decidable_of_iff ((text.toList.all fun c => !isQuote c) = true ∧
      (text.toList.head?.all fun c => !isBlank c) = true ∧
      (text.toList.getLast?.all fun c => !isBlank c) = true) <| by
    simp only [List.all_eq_true, Option.all_eq_true, Bool.not_eq_true']
    exact ⟨fun ⟨unquoted, head, last⟩ => ⟨unquoted, head, last⟩,
      fun ⟨unquoted, head, last⟩ => ⟨unquoted, head, last⟩⟩

theorem head?_dropWhile {p : Char → Bool} {s : List Char} :
    ∀ c ∈ (s.dropWhile p).head?, p c = false := by
  intro c hc
  have first := List.head?_dropWhile_not p s
  rw [Option.mem_def.1 hc] at first
  exact first

theorem head?_trim (s : List Char) : ∀ c ∈ (trim s).head?, isBlank c = false := by
  intro c hc
  obtain ⟨back, whole⟩ := dropRightWhile_append isBlank (s.dropWhile isBlank)
  refine head?_dropWhile (s := s) c ?_
  obtain ⟨rest, hrest⟩ := List.head?_eq_some_iff.1 hc
  rw [whole, ← trim, hrest]
  rfl

theorem getLast?_trim (s : List Char) : ∀ c ∈ (trim s).getLast?, isBlank c = false := by
  rw [trim, dropRightWhile, List.getLast?_reverse]
  exact head?_dropWhile

theorem mem_of_mem_trim {s : List Char} {c : Char} (h : c ∈ trim s) : c ∈ s := by
  have kept := (List.dropWhile_sublist _).mem (List.mem_reverse.1 h)
  exact (List.dropWhile_sublist _).mem (List.mem_reverse.1 kept)

theorem cleanText_literalText (source : Source) (node : Node) :
    CleanText (source.literalText node) := by
  rw [Source.literalText]
  constructor <;> rw [String.toList_ofList]
  · intro c hc
    simpa using (List.mem_filter.1 (mem_of_mem_trim hc)).2
  · exact head?_trim _
  · exact getLast?_trim _

/-! ## The routes of a class -/

/-- Identifiers have neither blanks nor quotes. -/
def PlainName (source : Source) (node : Node) : Prop :=
  ∀ name ∈ node.child? .name, ∀ c ∈ (source.textOf name).toList,
    isBlank c = false ∧ isQuote c = false

instance (source : Source) (node : Node) : Decidable (PlainName source node) :=
  decidable_of_iff (((node.child? .name).all fun name => (source.textOf name).toList.all fun c =>
      !isBlank c && !isQuote c) = true) <| by
    simp only [Option.all_eq_true, List.all_eq_true, Bool.and_eq_true, Bool.not_eq_true', PlainName,
      Option.mem_def]

/-- What holds of a route, whatever its class and its annotation say. -/
structure CleanEntry (entry : Entry) : Prop where
  priority : entry.priority ∈ priorities
  name : CleanText entry.name
  segment : ∀ text ∈ entry.segment, CleanText text
  history : ∀ text ∈ entry.history, CleanText text

section

variable {source : Source} {className : String} {options : Options}

theorem cleanText_className {node : Node} (plain : PlainName source node) :
    CleanText (Route.className source node) := by
  unfold Route.className
  cases hname : node.child? .name with
  | none =>
    -- A class without a name goes by a name that has angle brackets, but no quotes or blanks.
    exact (by decide : CleanText "<anonymous>")
  | some name =>
    have plain := plain name hname
    exact ⟨fun c hc => (plain c hc).2, fun c hc => (plain c (List.mem_of_head? hc)).1,
      fun c hc => (plain c (List.mem_of_getLast? hc)).1⟩

theorem cleanText_of_readText {option : String} {value : Node} {text : String}
    (h : readText source className option value = .ok text) : CleanText text := by
  unfold readText at h
  split at h
  · cases h
  · obtain rfl := Except.ok.inj h
    exact cleanText_literalText source value

theorem cleanText_of_readName (own : CleanText className) {name : String}
    (h : readName source className options = .ok name) : CleanText name := by
  unfold readName at h
  split at h
  · exact cleanText_of_readText h
  · obtain rfl := Except.ok.inj h
    exact own

theorem cleanText_of_readSegment {segment : Option String}
    (h : readSegment source className options = .ok segment) :
    ∀ text ∈ segment, CleanText text := by
  unfold readSegment at h
  split at h
  · next value given =>
    split at h
    · obtain rfl := Except.ok.inj h
      simp
    · cases hread : readText source className "segment" value with
      | error failure => simp [hread] at h
      | ok text =>
        rw [hread] at h
        obtain rfl := Except.ok.inj h
        exact fun _ h => Option.some.inj h ▸ cleanText_of_readText hread
  · obtain rfl := Except.ok.inj h
    simp

theorem mem_priorities_of_readPriority {priority : String}
    (h : readPriority source className options = .ok priority) : priority ∈ priorities := by
  unfold readPriority at h
  split at h
  · obtain ⟨text, -, h⟩ := bind_eq_ok.1 h
    split at h
    · next known => exact Except.ok.inj h ▸ known
    · cases h
  · obtain rfl := Except.ok.inj h
    decide

theorem cleanText_of_readHistory {history : List String}
    (h : readHistory source className options = .ok history) :
    ∀ text ∈ history, CleanText text := by
  unfold readHistory at h
  split at h
  · split at h
    · intro text htext
      obtain ⟨element, -, read⟩ := mem_of_mapM_eq_ok h text htext
      unfold readHistoryElement at read
      split at read
      · exact Except.ok.inj read ▸ cleanText_literalText source element
      · cases read
    · cases h
  · obtain rfl := Except.ok.inj h
    exact List.forall_mem_nil _

theorem priority_readEntry {c : AnnotatedClass} {entry : Entry}
    (h : readEntry source c = .ok entry) : entry.priority ∈ priorities := by
  unfold readEntry at h
  obtain ⟨options, -, h⟩ := bind_eq_ok.1 h
  obtain ⟨name, -, h⟩ := bind_eq_ok.1 h
  obtain ⟨segment, -, h⟩ := bind_eq_ok.1 h
  obtain ⟨priority, hpriority, h⟩ := bind_eq_ok.1 h
  obtain ⟨history, -, h⟩ := bind_eq_ok.1 h
  obtain rfl := Except.ok.inj h
  exact mem_priorities_of_readPriority hpriority

theorem cleanEntry_of_readEntry {c : AnnotatedClass} (own : CleanText c.className) {entry : Entry}
    (h : readEntry source c = .ok entry) : CleanEntry entry := by
  have priority := priority_readEntry h
  unfold readEntry at h
  obtain ⟨options, -, h⟩ := bind_eq_ok.1 h
  obtain ⟨name, hname, h⟩ := bind_eq_ok.1 h
  obtain ⟨segment, hsegment, h⟩ := bind_eq_ok.1 h
  obtain ⟨_, -, h⟩ := bind_eq_ok.1 h
  obtain ⟨history, hhistory, h⟩ := bind_eq_ok.1 h
  obtain rfl := Except.ok.inj h
  exact ⟨priority, cleanText_of_readName own hname,
    cleanText_of_readSegment hsegment, cleanText_of_readHistory hhistory⟩

end

/-! ## The links of a page source -/

section

variable {store : FileStore} {config : BuildConfig}

theorem annotatedClass?_class {source : Source} {wanted : String} {visit : Node.Visit}
    {c : AnnotatedClass} (h : annotatedClass? source wanted visit = some c) :
    isClassDeclaration visit.node.kind = true ∧ c.node = visit.node ∧
      c.className = className source visit.node := by
  unfold annotatedClass? at h
  split at h
  · next isClass =>
    dsimp only at h
    split at h
    · cases h
    · obtain rfl := Option.some.inj h
      exact ⟨isClass, rfl, rfl⟩
  · cases h

theorem mem_annotatedClasses {source : Source} {wanted : String} {c : AnnotatedClass}
    (h : c ∈ annotatedClasses source wanted) : c.node ∈ source.root.preorder ∧
      isClassDeclaration c.node.kind = true ∧ c.className = className source c.node := by
  rw [annotatedClasses_eq] at h
  obtain ⟨visit, hvisit, found⟩ := List.mem_filterMap.1 h
  obtain ⟨isClass, hnode, hname⟩ := annotatedClass?_class found
  rw [hnode, ← Node.walk_eq]
  exact ⟨List.mem_map_of_mem hvisit, isClass, hname⟩

theorem scan_eq_ok {source : Source} {wanted : String} {classes : List AnnotatedClass}
    (h : scan source wanted = .ok classes) : classes = annotatedClasses source wanted := by
  unfold scan at h
  dsimp only at h
  split at h
  · cases h
  · exact (Except.ok.inj h).symm

theorem map_filterMap_sublist {α β γ : Type} {f : α → Option β} {g : β → γ} {h : α → γ}
    (agree : ∀ a b, f a = some b → g b = h a) (as : List α) :
    ((as.filterMap f).map g).Sublist (as.map h) := by
  induction as with
  | nil => exact .slnil
  | cons a as ih =>
    cases found : f a with
    | none =>
      rw [List.filterMap_cons_none found]
      exact ih.cons _
    | some b =>
      rw [List.filterMap_cons_some found, List.map_cons, List.map_cons, agree a b found]
      exact ih.cons_cons _

/-- **Annotated classes stand in source order.** -/
theorem nodes_annotatedClasses (source : Source) (wanted : String) :
    ((annotatedClasses source wanted).map AnnotatedClass.node).Sublist source.root.preorder := by
  rw [annotatedClasses_eq, ← Node.walk_eq]
  refine map_filterMap_sublist (fun visit c found => ?_) _
  exact (annotatedClass?_class found).2.1

def DeclaredBy [WorkingFolder] [Parser] (store : FileStore) (config : BuildConfig) (source : Source)
    (c : AnnotatedClass)
    (link : Link) : Prop :=
  ∃ entry, readEntry source c = .ok entry ∧ entry.resolve config store = .ok link

/-- Some links are those of the annotated classes of a page source in their order. If the
decorator's name is not in the text, there are none. -/
def LinksOf [WorkingFolder] [Parser] (store : FileStore) (config : BuildConfig) (page : String)
    (links : List Link) : Prop :=
  ∃ content, store.get? page = some content ∧
    (occursIn config.routeDecorator.toList content.toList = false ∧ links = [] ∨
      List.Forall₂ (DeclaredBy store config (.ofText content page))
        (annotatedClasses (.ofText content page) config.routeDecorator) links)

theorem linksOf_of_pageLinks [WorkingFolder] [Parser] {page : String} {links : List Link}
    (h : pageLinks store config page = .ok links) : LinksOf store config page links := by
  unfold pageLinks at h
  obtain ⟨content, hcontent, h⟩ := bind_eq_ok.1 h
  refine ⟨content, FileStore.content_eq_ok.1 hcontent, ?_⟩
  cases named : occursIn config.routeDecorator.toList content.toList with
  | false =>
    rw [named] at h
    exact .inl ⟨rfl, (Except.ok.inj h).symm⟩
  | true =>
    rw [named] at h
    obtain ⟨entries, hentries, hlinks⟩ := bind_eq_ok.1 h
    unfold extract entriesOf at hentries
    obtain ⟨classes, hclasses, hentries⟩ := bind_eq_ok.1 hentries
    obtain rfl := scan_eq_ok hclasses
    exact .inr (steps_of_mapM_eq_ok hentries hlinks)

/-! ## The links of a project -/

theorem groups_of_projectLinks [WorkingFolder] [Parser] {links : List Link}
    (found : projectLinks store config = .ok links) :
    ∃ groups, List.Forall₂ (LinksOf store config) (pageSources store config) groups ∧
      links = groups.flatten ∧ ∀ link ∈ links, checkLink link = .ok () := by
  unfold projectLinks at found
  obtain ⟨groups, hgroups, found⟩ := bind_eq_ok.1 found
  obtain ⟨_, checked, found⟩ := bind_eq_ok.1 found
  obtain rfl := Except.ok.inj found
  exact ⟨groups, (mapM_eq_ok.1 hgroups).imp fun _ _ => linksOf_of_pageLinks, rfl,
    forM_eq_ok.1 checked⟩

theorem declaredBy_of_projectLinks [WorkingFolder] [Parser] {links : List Link}
    (found : projectLinks store config = .ok links) : ∀ link ∈ links,
    ∃ page ∈ pageSources store config, ∃ content, store.get? page = some content ∧
      ∃ c ∈ annotatedClasses (.ofText content page) config.routeDecorator,
        DeclaredBy store config (.ofText content page) c link := by
  intro link hlink
  obtain ⟨groups, each, rfl, -⟩ := groups_of_projectLinks found
  obtain ⟨group, hgroup, hlink⟩ := List.mem_flatten.1 hlink
  obtain ⟨page, hpage, content, stored, ⟨-, rfl⟩ | declared⟩ := exists_of_mem_right each hgroup
  · exact absurd hlink List.not_mem_nil
  · exact ⟨page, hpage, content, stored, exists_of_mem_right declared hlink⟩

/-- The classes of the page sources have names without blanks and quotes. -/
def PlainClassNames [Parser] (store : FileStore) (config : BuildConfig) : Prop :=
  ∀ page ∈ pageSources store config, ∀ content ∈ store.get? page,
    ∀ node ∈ (Source.ofText content page).root.preorder, isClassDeclaration node.kind = true →
      PlainName (.ofText content page) node

/-- What holds of every link of a project. -/
structure WellFormed [Parser] (store : FileStore) (config : BuildConfig)
    (link : Link) : Prop extends
    CleanEntry link.toEntry where
  nonempty : link.name ≠ ""
  page : link.filePath ∈ pageSources store config
  /-- The descriptor is in the store. It has one registrar, by whose name the link goes. -/
  descriptor : ∃ content registrar,
    store.get? (Descriptor.pathFor config link.filePath) = some content ∧
    annotatedClasses (.ofText content (Descriptor.pathFor config link.filePath))
      config.registrarDecorator = [registrar] ∧
    link.exportName = if config.compiledMode then registrar.className ++ config.compiledClassSuffix
      else registrar.className

theorem exportName_ofRegistrar [WorkingFolder] (config : BuildConfig) (path registrar : String) :
    (Descriptor.ofRegistrar config path registrar).exportName
      = if config.compiledMode then registrar ++ config.compiledClassSuffix else registrar := by
  unfold Descriptor.ofRegistrar
  cases config.compiledMode <;> rfl

theorem name_of_checkLink {link : Link} (h : checkLink link = .ok ()) : link.name ≠ "" := by
  intro empty
  unfold checkLink at h
  rw [empty] at h
  exact absurd h (by simp)

theorem wellFormed_of_declaredBy [WorkingFolder] [Parser] {page content : String}
    (hpage : page ∈ pageSources store config)
    {c : AnnotatedClass} (own : CleanText c.className) {link : Link}
    (h : DeclaredBy store config (.ofText content page) c link) (nonempty : link.name ≠ "") :
    WellFormed store config link := by
  obtain ⟨entry, read, resolved⟩ := h
  obtain ⟨descriptor, found, rfl⟩ := Entry.resolve_eq_ok.1 resolved
  obtain ⟨text, name, stored, registered, rfl⟩ := Descriptor.resolve_eq_ok.1 found
  obtain ⟨registrar, only, rfl⟩ := Descriptor.registrarOf_eq_ok.1 registered
  have path : entry.filePath = page := filePath_readEntry read
  have clean := cleanEntry_of_readEntry own read
  exact ⟨⟨clean.priority, clean.name, clean.segment, clean.history⟩, nonempty, path ▸ hpage,
    text, registrar, stored, only, exportName_ofRegistrar ..⟩

end

/-- **Every link of a project is well formed, and the links stand in order.** Each has a name, a
priority that there is, texts without quotes and without blanks at their ends, a page source that it
is declared in, and the exported class of the one registrar in the descriptor of that page. They
come page source by page source in the order of the store, and those of one page source are those of
its annotated classes in source order.

The name of a class is taken as it is written, and what an identifier is the parser says, so that
the classes have plain names is asked for. -/
theorem projectLinks_wellFormed [WorkingFolder] [Parser] {store : FileStore} {config : BuildConfig}
    {links : List Link}
    (plain : PlainClassNames store config) (found : projectLinks store config = .ok links) :
    (∀ link ∈ links, WellFormed store config link) ∧
    (pageSources store config).Sublist store.paths ∧
    (∃ groups, List.Forall₂ (LinksOf store config) (pageSources store config) groups ∧
      links = groups.flatten) ∧
    ∀ page content, ((annotatedClasses (.ofText content page) config.routeDecorator).map
      AnnotatedClass.node).Sublist (Source.ofText content page).root.preorder := by
  obtain ⟨groups, each, rfl, checked⟩ := groups_of_projectLinks found
  refine ⟨fun link hlink => ?_, List.filter_sublist.trans List.filter_sublist, ⟨groups, each, rfl⟩,
    fun page content => nodes_annotatedClasses _ _⟩
  obtain ⟨page, hpage, content, stored, c, hc, declared⟩ :=
    declaredBy_of_projectLinks found link hlink
  obtain ⟨inFile, isClass, hname⟩ := mem_annotatedClasses hc
  have own := cleanText_className (plain page hpage content stored c.node inFile isClass)
  exact wellFormed_of_declaredBy hpage (hname ▸ own) declared (name_of_checkLink (checked link hlink))

/-- A page that leaves all options out and two pages of one file, all with their descriptors. -/
def shopProject : FileStore :=
  .ofList [("/app/src/home.ts", "@IonicPage() class HomePage \x7b\x7d"),
    ("/app/src/home.module.ts", "@NgModule(\x7b\x7d) class HomePageModule \x7b\x7d"),
    ("/app/src/shop/orders.ts",
      "@IonicPage(\x7b name: 'orders', segment: 'orders/:id' \x7d) class OrdersPage \x7b\x7d\n"
        ++ "@IonicPage(\x7b priority: 'high', defaultHistory: ['HomePage', 'orders'] \x7d) "
        ++ "class ItemPage \x7b\x7d"),
    ("/app/src/shop/orders.module.ts", "@NgModule(\x7b\x7d) class OrdersModule \x7b\x7d")]

/-- The link of the page without options. -/
def homeLink : Link where
  className := "HomePage"
  filePath := "/app/src/home.ts"
  name := "HomePage"
  declaration := "@IonicPage()"
  modulePath := "../home.module"
  exportName := "HomePageModule"
  moduleFile := "/app/src/home.module.ts"

/-- The link of the first page of the other file. -/
def ordersLink : Link where
  className := "OrdersPage"
  filePath := "/app/src/shop/orders.ts"
  name := "orders"
  segment := some "orders/:id"
  declaration := "@IonicPage(\x7b name: 'orders', segment: 'orders/:id' \x7d)"
  modulePath := "../shop/orders.module"
  exportName := "OrdersModule"
  moduleFile := "/app/src/shop/orders.module.ts"

/-- The link of the second page, whose module is that of the first. -/
def itemLink : Link :=
  { ordersLink with
    className := "ItemPage"
    name := "ItemPage"
    segment := none
    priority := "high"
    history := ["HomePage", "orders"]
    declaration := "@IonicPage(\x7b priority: 'high', defaultHistory: ['HomePage', 'orders'] \x7d)" }

theorem projectLinks_shopProject :
    projectLinks shopProject ImportGraph.sampleConfig = .ok [homeLink, ordersLink, itemLink] :=
  toOption_eq_some.1 (by decide +kernel)

theorem projectLinks_wellFormed_shop :
    PlainClassNames shopProject ImportGraph.sampleConfig ∧
      projectLinks shopProject ImportGraph.sampleConfig = .ok [homeLink, ordersLink, itemLink] ∧
      ∀ link ∈ [homeLink, ordersLink, itemLink],
        WellFormed shopProject ImportGraph.sampleConfig link := by
  have plain : PlainClassNames shopProject ImportGraph.sampleConfig := by
    unfold PlainClassNames
    decide +kernel
  exact ⟨plain, projectLinks_shopProject,
    (projectLinks_wellFormed plain projectLinks_shopProject).1⟩

end RouteTrim.Route
