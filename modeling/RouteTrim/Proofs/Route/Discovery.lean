import RouteTrim.Proofs.Route.Extract
import RouteTrim.Route.Discovery

/-!
# The routes of a project with an edited file

A project is read twice over: page sources for their route annotations, and the descriptors beside
them for the registrar classes. An edit of one file leaves the links of the project as they are if
in that file it touches neither.

A file without the annotation's name in its text is not parsed. For a name without dots this skips
nothing, because an annotation is written with the last segment of its name. A name with dots is
also found where blanks stand around its dots, so there the text decides which files are read.
-/

set_option autoImplicit false

namespace RouteTrim.Route

open RouteTrim.Path (WorkingFolder)
open RouteTrim.Settings (BuildConfig)
open RouteTrim.Text (occursIn occursIn_iff endsWith_iff)
open RouteTrim.Tree

/-! ## Names in a text -/

section

variable {source : Source} {node : Node}

/-- The last name of a chain of names is a part of the text. -/
theorem exists_last_segment {segments : List String} (h : source.segments? node = some segments) :
    ∃ front, ∃ last : Span, segments = front ++ [String.ofList (last.slice source.text)] := by
  by_cases hname : node.kind ∈ nameKinds
  · rw [Source.segments?_name hname] at h
    obtain rfl := Option.some.inj h
    exact ⟨[], node.span, rfl⟩
  · by_cases hmember : node.kind = .memberExpression
    · rw [Source.segments?_member hmember] at h
      obtain ⟨front, -, h⟩ := Option.bind_eq_some_iff.1 h
      obtain ⟨property, -, h⟩ := Option.bind_eq_some_iff.1 h
      obtain rfl := Option.some.inj h
      exact ⟨front, property.span, rfl⟩
    · rw [Source.segments?_other hname hmember] at h
      exact absurd h (by simp)

/-- Joined parts end with the last one, behind a separator if it is not the only one. -/
theorem intercalate_concat {α : Type} (separator last : List α) (front : List (List α)) :
    separator.intercalate (front ++ [last]) = last ∨
      ∃ before, separator.intercalate (front ++ [last]) = before ++ (separator ++ last) := by
  induction front with
  | nil => exact .inl (by simp)
  | cons part front ih =>
    obtain ⟨next, rest, hrest⟩ : ∃ next rest, front ++ [last] = next :: rest :=
      List.exists_cons_of_ne_nil (by simp)
    rw [List.cons_append]
    rw [hrest] at ih ⊢
    rw [List.intercalate_cons_cons]
    rcases ih with ih | ⟨before, ih⟩
    · exact .inr ⟨part, by rw [ih, List.append_assoc]⟩
    · exact .inr ⟨part ++ separator ++ before, by rw [ih]; simp⟩

theorem suffix_of_nameMatches {name wanted : String} (h : nameMatches (some name) wanted = true) :
    wanted.toList <:+ name.toList := by
  unfold nameMatches at h
  rcases Bool.or_eq_true_iff.1 h with h | h
  · obtain rfl := beq_iff_eq.1 h
    exact List.suffix_refl _
  · exact (List.suffix_cons _ _).trans (endsWith_iff.1 h)

theorem occursIn_of_nameMatches {name wanted : String} (undotted : '.' ∉ wanted.toList)
    (hname : source.dottedName? node = some name)
    (h : nameMatches (some name) wanted = true) : occursIn wanted.toList source.text = true := by
  obtain ⟨segments, hsegments, rfl⟩ := Option.map_eq_some_iff.1 hname
  obtain ⟨front, last, rfl⟩ := exists_last_segment hsegments
  have ending := suffix_of_nameMatches h
  rw [String.toList_intercalate, List.map_append, List.map_singleton, String.toList_ofList,
    String.toList_ofList] at ending
  have inLast : wanted.toList <:+ last.slice source.text := by
    rcases intercalate_concat ['.'] (last.slice source.text) (front.map String.toList) with
      whole | ⟨before, whole⟩
    · rwa [whole] at ending
    · rw [whole] at ending
      have dotted : '.' :: last.slice source.text <:+ before ++ (['.'] ++ last.slice source.text) :=
        List.suffix_append ..
      rcases List.suffix_or_suffix_of_suffix ending dotted with short | long
      · rcases List.suffix_cons_iff.1 short with same | short
        · exact absurd (by simp [same]) undotted
        · exact short
      · exact absurd (long.subset List.mem_cons_self) undotted
  have inText : last.slice source.text <:+: source.text :=
    (List.take_prefix ..).isInfix.trans (List.drop_suffix ..).isInfix
  exact occursIn_iff.2 (inLast.isInfix.trans inText)

theorem name_eq_or_dottedName? (source : Source) (decorator : Node) :
    (Decoration.ofDecorator source decorator).name = "" ∨ ∃ node, source.dottedName? node
      = some (Decoration.ofDecorator source decorator).name := by
  have named (found : Option String) (h : ∀ name, found = some name →
      ∃ node, source.dottedName? node = some name) :
      found.getD "" = "" ∨ ∃ node, source.dottedName? node = some (found.getD "") := by
    cases found with
    | none => exact .inl rfl
    | some name => exact .inr (h name rfl)
  unfold Decoration.ofDecorator
  split
  · exact .inl rfl
  · split
    · refine named _ fun name hname => ?_
      obtain ⟨callee, -, hname⟩ := Option.bind_eq_some_iff.1 hname
      exact ⟨callee, hname⟩
    · exact named _ fun name hname => ⟨_, hname⟩

/-- A class is annotated with a name without dots only where the name is in the text. -/
theorem occursIn_of_annotated {wanted : String} (undotted : '.' ∉ wanted.toList)
    {c : AnnotatedClass} (h : c ∈ annotatedClasses source wanted) :
    occursIn wanted.toList source.text = true := by
  obtain ⟨visit, -, hvisit⟩ := List.mem_filterMap.1 h
  obtain ⟨-, some_, decorations⟩ := annotatedClass?_eq_some hvisit
  obtain ⟨decoration, hdecoration⟩ := List.exists_mem_of_ne_nil _ some_
  obtain ⟨hmatches, decorator, -, rfl⟩ := decorations decoration hdecoration
  rcases name_eq_or_dottedName? source decorator with empty | ⟨node, hname⟩
  · have ending := suffix_of_nameMatches hmatches
    rw [empty] at ending
    rw [List.suffix_nil.1 ending]
    exact occursIn_iff.2 List.nil_infix
  · exact occursIn_of_nameMatches undotted hname hmatches

end

/-- A text without the annotation's name, if that has no dots, declares no routes. -/
theorem extract_of_absent [Parser] {text path : String} {config : BuildConfig}
    (undotted : '.' ∉ config.routeDecorator.toList)
    (absent : occursIn config.routeDecorator.toList text.toList = false) :
    extract text path config = .ok [] := by
  have none : annotatedClasses (.ofText text path) config.routeDecorator = [] := by
    refine List.eq_nil_iff_forall_not_mem.2 fun c hc => ?_
    have found : occursIn config.routeDecorator.toList text.toList = true :=
      occursIn_of_annotated undotted hc
    rw [absent] at found
    exact absurd found (by simp)
  unfold extract entriesOf scan
  rw [none]
  rfl

/-! ## Entries and links -/

section

variable {α β : Type}

theorem mapM_congr {f g : α → Except Failure β} {as : List α} (h : ∀ a ∈ as, g a = f a) :
    as.mapM g = as.mapM f := by
  have same : List.Forall₂ (fun a b => a ∈ as ∧ a = b) as as :=
    List.forall₂_same.2 fun _ ha => ⟨ha, rfl⟩
  refine mapM_eq_of_forall₂ same fun a b hab => ?_
  obtain ⟨ha, rfl⟩ := hab
  exact h a ha

end

theorem filePath_readEntry {source : Source} {c : AnnotatedClass} {entry : Entry}
    (h : readEntry source c = .ok entry) : entry.filePath = source.path := by
  unfold readEntry at h
  obtain ⟨options, -, h⟩ := bind_eq_ok.1 h
  obtain ⟨name, -, h⟩ := bind_eq_ok.1 h
  obtain ⟨segment, -, h⟩ := bind_eq_ok.1 h
  obtain ⟨priority, -, h⟩ := bind_eq_ok.1 h
  obtain ⟨history, -, h⟩ := bind_eq_ok.1 h
  obtain rfl := Except.ok.inj h
  rfl

theorem filePath_extract [Parser] {text path : String} {config : BuildConfig} {entries : List Entry}
    (h : extract text path config = .ok entries) : ∀ entry ∈ entries, entry.filePath = path := by
  intro entry hentry
  unfold extract entriesOf at h
  obtain ⟨classes, -, h⟩ := bind_eq_ok.1 h
  obtain ⟨c, -, hc⟩ := mem_of_mapM_eq_ok h entry hentry
  exact filePath_readEntry hc

/-! ## An edit of one file -/

/-- An edit of a file spares the routes of a project. If the file is a page source, the edit lies in
front of or behind each of its route annotations, and a name with dots is in the text as before. -/
structure SparesRoutes [Parser] (config : BuildConfig) (files : FileStore) (target text : String)
    (e : Edit) : Prop where
  annotations : ∀ page ∈ pageSources files config, Path.normalize page = Path.normalize target →
    ∀ c ∈ annotatedClasses (.ofText text target) config.routeDecorator,
      ∀ decoration ∈ c.decorations, ¬ e.Overlaps decoration.node.span
  name : ∀ page ∈ pageSources files config, Path.normalize page = Path.normalize target →
    '.' ∈ config.routeDecorator.toList →
      occursIn config.routeDecorator.toList (e.span.replace text.toList e.text)
        = occursIn config.routeDecorator.toList text.toList

/-- An edit of a file spares the registrars of a project. If the file is the descriptor of a page
source, the edit replaces no registrar annotation. -/
def SparesRegistrars [Parser] (config : BuildConfig) (files : FileStore) (target text : String)
    (e : Edit) : Prop :=
  ∀ page ∈ pageSources files config,
    Path.normalize (Descriptor.pathFor config page) = Path.normalize target →
      ∀ c ∈ annotatedClasses (.ofText text target) config.registrarDecorator,
        ∀ decoration ∈ c.decorations, decoration.node ∉ Node.preorders e.dropped

instance [Parser] (config : BuildConfig) (files : FileStore) (target text : String) (e : Edit) :
    Decidable (SparesRoutes config files target text e) :=
  decidable_of_iff ((∀ page ∈ pageSources files config,
      Path.normalize page = Path.normalize target →
        ∀ c ∈ annotatedClasses (.ofText text target) config.routeDecorator,
          ∀ decoration ∈ c.decorations, ¬ e.Overlaps decoration.node.span) ∧
      ∀ page ∈ pageSources files config, Path.normalize page = Path.normalize target →
        '.' ∈ config.routeDecorator.toList →
          occursIn config.routeDecorator.toList (e.span.replace text.toList e.text)
            = occursIn config.routeDecorator.toList text.toList)
    ⟨fun ⟨annotations, name⟩ => ⟨annotations, name⟩, fun h => ⟨h.annotations, h.name⟩⟩

instance [Parser] (config : BuildConfig) (files : FileStore) (target text : String) (e : Edit) :
    Decidable (SparesRegistrars config files target text e) :=
  inferInstanceAs (Decidable (∀ page ∈ pageSources files config,
    Path.normalize (Descriptor.pathFor config page) = Path.normalize target →
      ∀ c ∈ annotatedClasses (.ofText text target) config.registrarDecorator,
        ∀ decoration ∈ c.decorations, decoration.node ∉ Node.preorders e.dropped))

section

variable {config : BuildConfig} {files : FileStore} {target text patched : String} {e : Edit}

/-- What holds of the annotations of a text under one path holds under any other. -/
theorem decorations_ofText [Parser] {wanted : String} {P : Decoration → Prop} (path : String)
    (h : ∀ c ∈ annotatedClasses (.ofText text target) wanted, ∀ d ∈ c.decorations, P d) :
    ∀ c ∈ annotatedClasses (.ofText text path) wanted, ∀ d ∈ c.decorations, P d := by
  rw [annotatedClasses_ofText text target path]
  exact List.forall_mem_map.2 h

theorem get?_of_same {path : String} (stored : files.get? target = some text)
    (same : Path.normalize path = Path.normalize target) : files.get? path = some text := by
  rw [← stored, FileStore.get?, FileStore.get?, same]

theorem pageSources_set (stored : files.get? target = some text) :
    pageSources (files.set target patched) config = pageSources files config := by
  rw [pageSources, pageSources, FileStore.pathsEnding, FileStore.pathsEnding,
    FileStore.paths_set stored]

/-- A class has the descriptor that it had, if the registrar in the edited file is the same. -/
theorem resolve_set [WorkingFolder] [Parser] (stored : files.get? target = some text)
    (classFile : String)
    (registrar : Path.normalize (Descriptor.pathFor config classFile) = Path.normalize target →
      Descriptor.registrarIn config (Descriptor.pathFor config classFile) patched
        = Descriptor.registrarIn config (Descriptor.pathFor config classFile) text) :
    Descriptor.resolve config (files.set target patched) classFile
      = Descriptor.resolve config files classFile := by
  unfold Descriptor.resolve
  dsimp only
  rw [FileStore.get?_set]
  by_cases same : Path.normalize (Descriptor.pathFor config classFile) = Path.normalize target
  · rw [if_pos same, get?_of_same stored same]
    simp only [registrar same]
  · rw [if_neg same]

/-- The links of the text of a page source. -/
def linksIn [WorkingFolder] [Parser] (files : FileStore) (config : BuildConfig)
    (page content : String) :
    Except Failure (List Link) :=
  if !occursIn config.routeDecorator.toList content.toList then return []
  else extract content page config >>= List.mapM (Entry.resolve config files)

theorem pageLinks_eq [WorkingFolder] [Parser] (page : String) :
    pageLinks files config page = files.content page >>= linksIn files config page := rfl

/-- Nothing is lost where a text without the annotation's name, if that has no dots, is not
parsed. -/
theorem linksIn_eq [WorkingFolder] [Parser] (undotted : '.' ∉ config.routeDecorator.toList)
    (page content : String) :
    linksIn files config page content
      = extract content page config >>= List.mapM (Entry.resolve config files) := by
  unfold linksIn
  cases occurs : occursIn config.routeDecorator.toList content.toList with
  | true => rfl
  | false =>
    rw [extract_of_absent undotted occurs]
    rfl

/-- **A page source has the links that it had.** -/
theorem pageLinks_set [WorkingFolder] [Parser] (stored : files.get? target = some text)
    (revises : ∀ path, e.Revises (.ofText text path) (.ofText patched path)) (plain : e.Plain)
    (routes : SparesRoutes config files target text e)
    (registrars : SparesRegistrars config files target text e) {page : String}
    (hpage : page ∈ pageSources files config) :
    pageLinks (files.set target patched) config page = pageLinks files config page := by
  have sound := (revises target).turns.sound
  have resolved (content : String) :
      extract content page config >>= List.mapM (Entry.resolve config (files.set target patched))
        = extract content page config >>= List.mapM (Entry.resolve config files) := by
    cases hentries : extract content page config with
    | error failure => rfl
    | ok entries =>
      refine mapM_congr fun entry hentry => ?_
      rw [Entry.resolve, Entry.resolve, filePath_extract hentries entry hentry,
        resolve_set stored page fun same => ?_]
      exact registrarOf_edited (revises _) (annotatedClasses_rel (revises _) plain
        (gone_of_not_mem_dropped sound (decorations_ofText _ (registrars page hpage same))))
  have links (content : String) : linksIn (files.set target patched) config page content
      = linksIn files config page content := by
    rw [linksIn, linksIn, resolved]
  rw [pageLinks_eq, pageLinks_eq, FileStore.content, FileStore.content, FileStore.get?_set]
  by_cases same : Path.normalize page = Path.normalize target
  · have extracted : extract patched page config = extract text page config :=
      entriesOf_edited (revises page) plain
        (decorations_ofText page (routes.annotations page hpage same))
    rw [if_pos same, get?_of_same stored same]
    show linksIn (files.set target patched) config page patched = linksIn files config page text
    rw [links]
    by_cases dotted : '.' ∈ config.routeDecorator.toList
    · have text : patched.toList = e.span.replace text.toList e.text := (revises page).text
      rw [linksIn, linksIn, extracted, text, routes.name page hpage same dotted]
    · rw [linksIn_eq dotted, linksIn_eq dotted, extracted]
  · rw [if_neg same]
    congr 1
    exact funext links

/-- The links of a project in which a file has got other characters. They are the page's text if the
file is a page source, so there they are read as they stand and no text is made of them. -/
def linksOver [WorkingFolder] [Parser] (files : FileStore) (config : BuildConfig) (target : String)
    (content : List Char) :
    Except Failure (List Link) := do
  let after := files.set target (.ofList content)
  let pages ← (pageSources files config).mapM fun page =>
    if Path.normalize page = Path.normalize target then
      if !occursIn config.routeDecorator.toList content then return []
      else entriesOf ⟨page, content, Parser.parse content⟩ config
          >>= List.mapM (Entry.resolve config after)
    else files.content page >>= linksIn after config page
  checkLinks pages.flatten
  return pages.flatten

theorem projectLinks_set_ofList [WorkingFolder] [Parser] (stored : files.get? target = some text)
    (content : List Char) :
    projectLinks (files.set target (.ofList content)) config
      = linksOver files config target content := by
  unfold projectLinks linksOver
  rw [pageSources_set stored]
  refine congrArg (· >>= _) (mapM_congr fun page _ => ?_)
  rw [pageLinks_eq, FileStore.content, FileStore.get?_set]
  by_cases same : Path.normalize page = Path.normalize target
  · rw [if_pos same, if_pos same]
    show linksIn _ config page (.ofList content) = _
    rw [linksIn, extract, Source.ofText, String.toList_ofList]
  · rw [if_neg same, if_neg same, FileStore.content]

/-- **A project has the links that it had**, if the edit spares its routes and registrars. -/
theorem projectLinks_set [WorkingFolder] [Parser] (stored : files.get? target = some text)
    (revises : ∀ path, e.Revises (.ofText text path) (.ofText patched path)) (plain : e.Plain)
    (routes : SparesRoutes config files target text e)
    (registrars : SparesRegistrars config files target text e) :
    projectLinks (files.set target patched) config = projectLinks files config := by
  unfold projectLinks
  rw [pageSources_set stored,
    mapM_congr fun page hpage => pageLinks_set stored revises plain routes registrars hpage]

end

end RouteTrim.Route
