import RouteTrim.Proofs.Route.Links

/-!
# Page sources that are not parsed

A page source is parsed for routes if the annotation's name is somewhere in its text. Decorators are
compared by their chains of names, and a chain may be written with blanks and comments around its
dots, so the test on the text is not the test on the tree. This file holds the pass against the one
that parses every page source (`allProjectLinks`), and says which files make the difference: those
with an annotated class and without the annotation's name in their text (`Overlooked`). There are
none if the name has no dots, or if the annotations are written with nothing around their dots.
-/

set_option autoImplicit false

namespace RouteTrim.Route

open RouteTrim.Path (WorkingFolder)
open RouteTrim.Settings (BuildConfig)
open RouteTrim.Text (occursIn occursIn_iff)
open RouteTrim.Tree

/-- The links of one page source, which is parsed whatever its text is. -/
def allPageLinks [WorkingFolder] [Parser] (store : FileStore)
    (config : BuildConfig) (path : String) :
    Except Failure (List Link) := do
  let content ← store.content path
  let entries ← extract content path config
  entries.mapM (Entry.resolve config store)

/-- The links of a project of which every page source is parsed. -/
def allProjectLinks [WorkingFolder] [Parser] (store : FileStore)
    (config : BuildConfig) : Except Failure (List Link) := do
  let links := (← (pageSources store config).mapM (allPageLinks store config)).flatten
  checkLinks links
  return links

/-- A file has an annotated class, but not the annotation's name in its text. -/
def Overlooked [Parser] (store : FileStore) (config : BuildConfig) (page : String) : Prop :=
  ∃ content, store.get? page = some content
    ∧ occursIn config.routeDecorator.toList content.toList = false
    ∧ annotatedClasses (.ofText content page) config.routeDecorator ≠ []

variable {store : FileStore} {config : BuildConfig} {page content : String}

/-! ## One page source -/

theorem length_of_mapM_eq_ok {α β : Type} {f : α → Except Failure β} {as : List α} {bs : List β}
    (h : as.mapM f = .ok bs) : bs.length = as.length :=
  (mapM_eq_ok.1 h).length_eq.symm

theorem extract_of_annotatedClasses_eq_nil [Parser]
    (none : annotatedClasses (.ofText content page) config.routeDecorator = []) :
    extract content page config = .ok [] := by
  unfold extract entriesOf scan
  rw [none]
  rfl

/-- Each annotated class declares a route, if the file can be read at all. -/
theorem length_of_extract [Parser] {entries : List Entry}
    (h : extract content page config = .ok entries) :
    entries.length = (annotatedClasses (.ofText content page) config.routeDecorator).length := by
  obtain ⟨classes, hscan, hread⟩ := bind_eq_ok.1 h
  rw [length_of_mapM_eq_ok hread, scan_eq_ok hscan]

theorem allPageLinks_eq [WorkingFolder] [Parser] (stored : store.get? page = some content) :
    allPageLinks store config page
      = extract content page config >>= List.mapM (Entry.resolve config store) := by
  unfold allPageLinks FileStore.content
  rw [stored]
  rfl

theorem Overlooked.pageLinks_eq [WorkingFolder] [Parser] (h : Overlooked store config page) :
    pageLinks store config page = .ok [] ∧ allPageLinks store config page ≠ .ok [] := by
  obtain ⟨content, stored, absent, annotated⟩ := h
  constructor
  · unfold pageLinks FileStore.content
    rw [stored]
    show linksIn store config page content = _
    rw [linksIn, absent]
    rfl
  · rw [allPageLinks_eq stored]
    intro none
    obtain ⟨entries, hentries, hlinks⟩ := bind_eq_ok.1 none
    have count := length_of_mapM_eq_ok hlinks
    rw [length_of_extract hentries] at count
    exact annotated (List.length_eq_zero_iff.1 count.symm)

theorem pageLinks_of_not_overlooked [WorkingFolder] [Parser] (h : ¬ Overlooked store config page) :
    pageLinks store config page = allPageLinks store config page := by
  unfold pageLinks allPageLinks FileStore.content
  cases stored : store.get? page with
  | none => rfl
  | some content =>
    show linksIn store config page content
      = extract content page config >>= List.mapM (Entry.resolve config store)
    unfold linksIn
    cases occurs : occursIn config.routeDecorator.toList content.toList with
    | true => rfl
    | false =>
      have none : annotatedClasses (.ofText content page) config.routeDecorator = [] := by
        by_cases none : annotatedClasses (.ofText content page) config.routeDecorator = []
        · exact none
        · exact absurd ⟨content, stored, occurs, none⟩ h
      rw [extract_of_annotatedClasses_eq_nil none]
      rfl

/-- An overlooked file writes its annotations in another way than with their dotted names. -/
theorem Overlooked.spelling [Parser] (h : Overlooked store config page) :
    '.' ∈ config.routeDecorator.toList ∧ ∀ content, store.get? page = some content →
      ∀ c ∈ annotatedClasses (.ofText content page) config.routeDecorator, ∀ d ∈ c.decorations,
        occursIn d.name.toList content.toList = false := by
  obtain ⟨content, stored, absent, annotated⟩ := h
  constructor
  · obtain ⟨c, hc⟩ := List.exists_mem_of_ne_nil _ annotated
    by_contra undotted
    have found : occursIn config.routeDecorator.toList content.toList = true :=
      occursIn_of_annotated undotted hc
    rw [absent] at found
    exact absurd found (by simp)
  · intro content' stored' c hc d hd
    obtain rfl : content = content' := Option.some.inj (stored.symm.trans stored')
    obtain ⟨visit, -, hvisit⟩ := List.mem_filterMap.1 hc
    obtain ⟨-, -, decorations⟩ := annotatedClass?_eq_some hvisit
    refine Bool.eq_false_iff.2 fun found => ?_
    have infixed := (suffix_of_nameMatches (decorations d hd).1).isInfix.trans (occursIn_iff.1 found)
    rw [occursIn_iff.2 infixed] at absent
    exact absurd absent (by simp)

/-! ## The project -/

/-- Parsing every page source gives no fewer links, and as many only if no file is overlooked. -/
theorem length_flatten_le [WorkingFolder] [Parser] {pages : List String}
    {groups all : List (List Link)}
    (h : List.Forall₂ (fun page group => pageLinks store config page = .ok group) pages groups)
    (h' : List.Forall₂ (fun page group => allPageLinks store config page = .ok group) pages all) :
    groups.flatten.length ≤ all.flatten.length
      ∧ (groups.flatten.length = all.flatten.length →
        ∀ page ∈ pages, ¬ Overlooked store config page) := by
  induction h generalizing all with
  | nil =>
    cases h'
    exact ⟨Nat.le_refl _, fun _ => List.forall_mem_nil _⟩
  | @cons page group pages groups hpage _ ih =>
    cases h' with
    | @cons _ group' _ all hall rest =>
      obtain ⟨fewer, same⟩ := ih rest
      rw [List.flatten_cons, List.flatten_cons, List.length_append, List.length_append,
        List.forall_mem_cons]
      by_cases overlooked : Overlooked store config page
      · obtain ⟨none, some_⟩ := overlooked.pageLinks_eq
        obtain rfl : [] = group := Except.ok.inj (none.symm.trans hpage)
        have pos : 0 < group'.length := List.length_pos_iff.2 fun empty => some_ (empty ▸ hall)
        rw [List.length_nil]
        exact ⟨by omega, fun count => by omega⟩
      · rw [pageLinks_of_not_overlooked overlooked, hall] at hpage
        obtain rfl := Except.ok.inj hpage
        exact ⟨by omega, fun count => ⟨overlooked, same (by omega)⟩⟩

/-- **Nothing is lost by not parsing a file, unless it is overlooked.** A page source has the same
links, or the same fault, as when it is parsed if and only if it is not overlooked; a project has if
none of its page sources is, and a project that is read without a fault only then. An overlooked
file takes a name with dots, and each of its annotations is written in another way than with its
dotted name. -/
theorem projectLinks_unless_overlooked [WorkingFolder] [Parser] (store : FileStore)
    (config : BuildConfig) :
    (∀ page, pageLinks store config page = allPageLinks store config page
        ↔ ¬ Overlooked store config page)
      ∧ ((∀ page ∈ pageSources store config, ¬ Overlooked store config page) →
        projectLinks store config = allProjectLinks store config)
      ∧ (∀ links, projectLinks store config = .ok links →
        (allProjectLinks store config = .ok links
          ↔ ∀ page ∈ pageSources store config, ¬ Overlooked store config page))
      ∧ ∀ page, Overlooked store config page →
        '.' ∈ config.routeDecorator.toList ∧ ∀ content, store.get? page = some content →
          ∀ c ∈ annotatedClasses (.ofText content page) config.routeDecorator,
            ∀ d ∈ c.decorations, occursIn d.name.toList content.toList = false := by
  have whole (none : ∀ page ∈ pageSources store config, ¬ Overlooked store config page) :
      projectLinks store config = allProjectLinks store config := by
    unfold projectLinks allProjectLinks
    rw [mapM_congr fun page hpage => pageLinks_of_not_overlooked (none page hpage)]
  refine ⟨fun page => ⟨fun same overlooked => ?_, pageLinks_of_not_overlooked⟩, whole,
    fun links found => ⟨fun all => ?_, fun none => whole none ▸ found⟩, fun _ h => h.spelling⟩
  · obtain ⟨none, some_⟩ := overlooked.pageLinks_eq
    exact some_ (same ▸ none)
  · obtain ⟨groups, hgroups, found⟩ := bind_eq_ok.1 found
    obtain ⟨_, -, found⟩ := bind_eq_ok.1 found
    obtain ⟨groups', hgroups', all⟩ := bind_eq_ok.1 all
    obtain ⟨_, -, all⟩ := bind_eq_ok.1 all
    have same : groups.flatten = groups'.flatten := Except.ok.inj (found.trans all.symm)
    exact (length_flatten_le (mapM_eq_ok.1 hgroups) (mapM_eq_ok.1 hgroups')).2
      (congrArg List.length same)

/-- A page whose annotation goes over two lines, and its descriptor. -/
def twoLineProject : FileStore :=
  .ofList [("/app/src/home.ts", "@ionic\n  .IonicPage(\x7b name: 'home' \x7d)\nclass HomePage \x7b\x7d"),
    ("/app/src/home.module.ts", "@NgModule(\x7b\x7d) class HomePageModule \x7b\x7d")]

def twoLineLink : Link :=
  { homeLink with name := "home", declaration := "@ionic\n  .IonicPage(\x7b name: 'home' \x7d)" }

/-- **A route is dropped without a word** where the annotation's name has a dot and a line end
stands in front of the dot in the file. -/
theorem projectLinks_overlooks :
    let config := { ImportGraph.sampleConfig with routeDecorator := "ionic.IonicPage" }
    projectLinks twoLineProject config = .ok []
      ∧ allProjectLinks twoLineProject config = .ok [twoLineLink] :=
  ⟨toOption_eq_some.1 (by decide +kernel), toOption_eq_some.1 (by decide +kernel)⟩

end RouteTrim.Route
