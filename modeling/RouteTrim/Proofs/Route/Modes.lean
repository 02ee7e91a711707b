import RouteTrim.Proofs.Path.Specifier
import RouteTrim.Proofs.Route.Extract
import RouteTrim.Proofs.Route.Links

/-!
# The two build modes agree

Compiled mode loads a factory in place of the module of a descriptor, with another class, another
file and another specifier. All three are made from the stem of the descriptor, the path without
`.ts`, and so are those of source mode. The mode has no part in whether a descriptor is found, and
in either mode the specifier leads from the root descriptor to the file of the module
(`resolve_modes`).

The paths of a project are as the store has them, from the root and in their normal spelling, and
suffixes stay within a name.
-/

set_option autoImplicit false

namespace RouteTrim.Route

open RouteTrim.Path
open RouteTrim.Settings (BuildConfig)
open RouteTrim.Text (backslash endsWith joinWith)
open RouteTrim.Tree (Parser)

/-! ## Normal paths of files -/

def IsNormalPath (path : String) : Prop :=
  Anchor.ofPath path.toList = .root ∧ Path.normalize path = path

instance (path : String) : Decidable (IsNormalPath path) :=
  inferInstanceAs (Decidable (_ ∧ _))

/-- A text that stays within one segment of a path. -/
def WithinName (text : List Char) : Prop :=
  ∀ c ∈ text, c ≠ '/' ∧ c ≠ backslash

instance (text : List Char) : Decidable (WithinName text) :=
  List.decidableBAll (fun c => c ≠ '/' ∧ c ≠ backslash) text

def AreFolders (folders : List Segment) : Prop :=
  ∀ s ∈ folders, IsName s ∧ backslash ∉ s

theorem IsNormalPath.exists_names {path : String} (h : IsNormalPath path) :
    ∃ names, AreFolders names ∧ path = String.ofList (Location.mk .root names).toPath := by
  obtain ⟨root, normal⟩ := h
  have plain : backslash ∉ path.toList := by
    rw [← normal]
    exact plain_normalize path
  obtain ⟨names, hnames, spelled⟩ : IsKey (Path.normalize path) := isKey_normalize ⟨root, plain⟩
  have chars : normalizeChars path.toList = (Location.mk .root names).toPath :=
    String.ofList_injective spelled
  exact ⟨names, fun s hs => ⟨hnames s hs, plain_of_normal chars s hs⟩, normal ▸ spelled⟩

/-- The path of a file in some folders. -/
def filePath (folders : List Segment) (name : List Char) : String :=
  String.ofList (Location.mk .root (folders ++ [name])).toPath

theorem normal_filePath {folders : List Segment} {name : List Char} (h : AreFolders folders)
    (visible : ∃ c ∈ name, c ≠ '.') (within : WithinName name) :
    IsKey (filePath folders name) ∧ Path.normalize (filePath folders name)
      = filePath folders name := by
  obtain ⟨c, hc, undotted⟩ := visible
  have isName : IsName name := by
    refine ⟨⟨List.ne_nil_of_mem hc, ?_, fun slash => (within _ slash).1 rfl⟩, ?_⟩
    · rintro rfl
      exact undotted (List.mem_singleton.1 hc)
    · rintro rfl
      simp only [up, List.mem_cons, List.not_mem_nil, or_false, or_self] at hc
      exact undotted hc
  have names : ∀ s ∈ folders ++ [name], IsName s :=
    List.forall_mem_append.2 ⟨fun s hs => (h s hs).1, List.forall_mem_singleton.2 isName⟩
  have plain : backslash ∉ (Location.mk .root (folders ++ [name])).toPath :=
    plain_toPath (List.forall_mem_append.2 ⟨fun s hs => (h s hs).2,
      List.forall_mem_singleton.2 fun hmem => (within _ hmem).2 rfl⟩)
  refine ⟨⟨_, names, rfl⟩, ?_⟩
  rw [filePath, Path.normalize, String.toList_ofList,
    normalizeChars_of_plain plain, ofPath_names names]

theorem exists_folder (folders : List Segment) : ∃ folder, ∀ name,
    (filePath folders name).toList = folder ++ '/' :: name := by
  unfold filePath
  cases folders with
  | nil => exact ⟨[], fun name => String.toList_ofList⟩
  | cons s folders =>
    refine ⟨'/' :: joinWith ['/'] (s :: folders), fun name => ?_⟩
    rw [String.toList_ofList, toPath_root, Text.joinWith_concat (by simp)]
    simp

theorem filePath_append (folders : List Segment) (name : List Char) (text : String) :
    filePath folders name ++ text = filePath folders (name ++ text.toList) := by
  obtain ⟨folder, spelled⟩ := exists_folder folders
  refine String.toList_injective ?_
  rw [String.toList_append, spelled, spelled]
  simp

theorem changeExtension_filePath (folders : List Segment) {name : List Char}
    (slashless : '/' ∉ name) (extension : String) :
    Path.changeExtension (filePath folders name) extension
      = filePath folders ((splitExtensionChars name).1 ++ extension.toList) := by
  obtain ⟨folder, spelled⟩ := exists_folder folders
  refine String.toList_injective ?_
  rw [Path.changeExtension, String.toList_ofList, spelled, spelled,
    splitExtension_file folder slashless]
  simp

/-! ## The stem of a descriptor -/

/-- What the paths and suffixes of a project are like for the modes to agree about a class file. -/
structure ModePaths (config : BuildConfig) (classFile : String) : Prop where
  root : IsNormalPath config.rootDescriptorPath
  page : IsNormalPath classFile
  source : endsWith ".ts".toList classFile.toList = true
  descriptor : endsWith ".ts".toList config.descriptorSuffix.toList = true
  descriptorSuffix : WithinName config.descriptorSuffix.toList
  compiledSuffix : WithinName config.compiledSuffix.toList

instance (config : BuildConfig) (classFile : String) : Decidable (ModePaths config classFile) :=
  decidable_of_iff (_ ∧ _ ∧ _ ∧ _ ∧ _ ∧ _)
    ⟨fun ⟨root, page, source, descriptor, descriptorSuffix, compiledSuffix⟩ =>
      ⟨root, page, source, descriptor, descriptorSuffix, compiledSuffix⟩,
      fun ⟨root, page, source, descriptor, descriptorSuffix, compiledSuffix⟩ =>
        ⟨root, page, source, descriptor, descriptorSuffix, compiledSuffix⟩⟩

theorem exists_name {path : String} (normal : IsNormalPath path)
    (source : endsWith ".ts".toList path.toList = true) : ∃ folders name, AreFolders folders ∧
      path = filePath folders name ∧ (∃ c ∈ name, c ≠ '.') ∧ WithinName name := by
  obtain ⟨names, hnames, rfl⟩ := normal.exists_names
  rcases List.eq_nil_or_concat' names with rfl | ⟨folders, name, rfl⟩
  · exact absurd source (by decide)
  obtain ⟨hfolders, hname⟩ := List.forall_mem_append.1 hnames
  obtain ⟨⟨⟨nonempty, -, slashless⟩, -⟩, plain⟩ := hname name (.head _)
  obtain ⟨folder, spelled⟩ := exists_folder folders
  -- The last character of the path is that of the name, and it is no dot.
  have last : name.getLast? = some 's' := by
    obtain ⟨front, ending⟩ := Text.endsWith_iff.1 source
    have whole : (folder ++ '/' :: name).getLast? = (front ++ ".ts".toList).getLast? := by
      rw [← spelled, ending]
      rfl
    rw [List.getLast?_append_of_ne_nil _ (by simp), List.getLast?_cons_of_ne_nil nonempty] at whole
    rw [whole]
    simp
  refine ⟨folders, name, hfolders, rfl, ⟨'s', List.mem_of_getLast? last, by decide⟩, fun c hc => ?_⟩
  exact ⟨fun slash => slashless (slash ▸ hc), fun backslash => plain (backslash ▸ hc)⟩

theorem exists_stem {config : BuildConfig} {classFile : String}
    (paths : ModePaths config classFile) :
    ∃ folders name, AreFolders folders ∧ (∃ c ∈ name, c ≠ '.') ∧ WithinName name ∧
      Descriptor.pathFor config classFile = filePath folders name ++ ".ts" ∧
      Path.stripExtension (Descriptor.pathFor config classFile) = filePath folders name := by
  obtain ⟨folders, name, hfolders, rfl, visible, within⟩ := exists_name paths.page paths.source
  have slashless : '/' ∉ name := fun slash => (within _ slash).1 rfl
  obtain ⟨front, ending⟩ := Text.endsWith_iff.1 paths.descriptor
  obtain ⟨c, hc, undotted⟩ := visible_stem slashless visible
  have descriptor : Descriptor.pathFor config (filePath folders name)
      = filePath folders ((splitExtensionChars name).1 ++ front ++ ".ts".toList) := by
    rw [Descriptor.pathFor, changeExtension_filePath folders slashless, ← ending, List.append_assoc]
  have stem : WithinName ((splitExtensionChars name).1 ++ front) := by
    refine List.forall_mem_append.2 ⟨fun c hc => within c ?_, fun c hc =>
      paths.descriptorSuffix c (ending ▸ List.mem_append_left _ hc)⟩
    rw [← splitExtension_append name]
    exact List.mem_append_left _ hc
  have apart : '/' ∉ (splitExtensionChars name).1 ++ front ++ ".ts".toList := fun slash => by
    rcases List.mem_append.1 slash with slash | slash
    · exact (stem _ slash).1 rfl
    · exact absurd slash (by decide)
  have visible : ∃ c ∈ (splitExtensionChars name).1 ++ front, c ≠ '.' :=
    ⟨c, List.mem_append_left _ hc, undotted⟩
  refine ⟨folders, _, hfolders, visible, stem, by rw [descriptor, filePath_append], ?_⟩
  have extension : (splitExtensionChars (_ ++ '.' :: ['t', 's'])).1 = _ :=
    splitExtension_name apart visible (by decide)
  rw [descriptor, Path.stripExtension, changeExtension_filePath folders apart, String.toList_empty,
    List.append_nil]
  exact congrArg (filePath folders) extension

/-! ## The modes -/

section

variable {config : BuildConfig} {store : FileStore} {entry : Entry}

/-- The links that the two modes have for a route. -/
structure ModeLinks [Parser] (config : BuildConfig) (store : FileStore) (entry : Entry)
    (source compiled : Link) : Prop where
  source_entry : source.toEntry = entry
  compiled_entry : compiled.toEntry = entry
  /-- The module of source mode exports the registrar of the descriptor. -/
  registrar : ∃ content registrar,
    store.get? (Descriptor.pathFor config entry.filePath) = some content ∧
    Descriptor.registrarIn config (Descriptor.pathFor config entry.filePath) content
      = .ok registrar ∧
    source.exportName = registrar ∧ compiled.exportName = registrar ++ config.compiledClassSuffix
  moduleFile : ∃ stem, source.moduleFile = stem ++ ".ts" ∧
    compiled.moduleFile = stem ++ config.compiledSuffix ++ ".ts"
  source_leads : Path.normalize
    (Path.join (Path.directory config.rootDescriptorPath) source.modulePath) ++ ".ts"
      = source.moduleFile
  compiled_leads : Path.normalize
    (Path.join (Path.directory config.rootDescriptorPath) compiled.modulePath) ++ ".ts"
      = compiled.moduleFile

theorem specifier_leads [WorkingFolder] {root : String} (normal : IsNormalPath root)
    {folders : List Segment}
    {name : List Char} (hfolders : AreFolders folders) (visible : ∃ c ∈ name, c ≠ '.')
    (within : WithinName name) :
    Path.normalize (Path.join (Path.directory root)
      (Path.importSpecifier root (filePath folders name))) = filePath folders name := by
  obtain ⟨key, own⟩ := normal_filePath hfolders visible within
  have rootKey : IsKey (Path.normalize root) :=
    isKey_normalize ⟨normal.1, normal.2 ▸ plain_normalize root⟩
  have leads := normalize_join_importSpecifier rootKey (own.symm ▸ key)
  rwa [normal.2, own] at leads

theorem modeLinks_ofRegistrar [WorkingFolder] [Parser] (paths : ModePaths config entry.filePath)
    {content registrar : String}
    (stored : store.get? (Descriptor.pathFor config entry.filePath) = some content)
    (registered : Descriptor.registrarIn config (Descriptor.pathFor config entry.filePath) content
      = .ok registrar) :
    ModeLinks config store entry
      (entry.link (.ofRegistrar { config with compiledMode := false }
        (Descriptor.pathFor config entry.filePath) registrar))
      (entry.link (.ofRegistrar { config with compiledMode := true }
        (Descriptor.pathFor config entry.filePath) registrar)) := by
  obtain ⟨folders, name, hfolders, visible, within, path, stem⟩ := exists_stem paths
  have compiled : WithinName (name ++ config.compiledSuffix.toList) :=
    List.forall_mem_append.2 ⟨within, paths.compiledSuffix⟩
  obtain ⟨c, hc, undotted⟩ := visible
  refine ⟨rfl, rfl, ⟨content, registrar, stored, registered, rfl, rfl⟩,
    ⟨filePath folders name, path, ?_⟩, ?_, ?_⟩
  · show Path.stripExtension _ ++ config.compiledSuffix ++ ".ts" = _
    rw [stem]
  · show Path.normalize (Path.join _ (Path.importSpecifier _ (Path.stripExtension _))) ++ ".ts" = _
    rw [stem, specifier_leads paths.root hfolders ⟨c, hc, undotted⟩ within]
    exact path.symm
  · show Path.normalize (Path.join _ (Path.importSpecifier _
      (Path.stripExtension _ ++ config.compiledSuffix))) ++ ".ts"
        = Path.stripExtension _ ++ config.compiledSuffix ++ ".ts"
    rw [stem, filePath_append,
      specifier_leads paths.root hfolders ⟨c, List.mem_append_left _ hc, undotted⟩ compiled]

end

/-- **The two build modes agree.** They fail alike, and if they do not, then both links have the
fields of the route; the exported classes and the files of the modules differ by the suffixes for
compiled ones only; and in either mode the specifier, walked from the directory of the root
descriptor, leads to the file of the module. -/
theorem resolve_modes [WorkingFolder] [Parser] {config : BuildConfig} {store : FileStore}
    {entry : Entry}
    (paths : ModePaths config entry.filePath) :
    ResultRel (ModeLinks config store entry)
      (entry.resolve { config with compiledMode := false } store)
      (entry.resolve { config with compiledMode := true } store) := by
  unfold Entry.resolve
  -- The mode has a part in `ofRegistrar` only: what is looked up and read is the same.
  cases stored : store.get? (Descriptor.pathFor config entry.filePath) with
  | none =>
    have missing (mode : Bool) :
        Descriptor.resolve { config with compiledMode := mode } store entry.filePath = .error _ :=
      Descriptor.resolve_of_none stored
    rw [missing, missing]
    exact .error _
  | some content =>
    have read (mode : Bool) :
        Descriptor.resolve { config with compiledMode := mode } store entry.filePath = _ <$>
          Descriptor.registrarIn config (Descriptor.pathFor config entry.filePath) content :=
      Descriptor.resolve_of_some stored
    rw [read, read]
    cases registered :
        Descriptor.registrarIn config (Descriptor.pathFor config entry.filePath) content with
    | error failure => exact .error failure
    | ok registrar => exact .ok (modeLinks_ofRegistrar paths stored registered)

/-- The link of the page of orders in compiled mode. -/
def ordersFactory : Link :=
  { ordersLink with
    modulePath := "../shop/orders.module.ngfactory"
    exportName := "OrdersModuleNgFactory"
    moduleFile := "/app/src/shop/orders.module.ngfactory.ts" }

/-- The link of the second page of that file in compiled mode. -/
def itemFactory : Link :=
  { itemLink with
    modulePath := ordersFactory.modulePath
    exportName := ordersFactory.exportName
    moduleFile := ordersFactory.moduleFile }

theorem resolve_modes_shop :
    ModePaths ImportGraph.sampleConfig ordersLink.filePath ∧
      ModeLinks ImportGraph.sampleConfig shopProject ordersLink.toEntry ordersLink ordersFactory ∧
      ModeLinks ImportGraph.sampleConfig shopProject itemLink.toEntry itemLink itemFactory := by
  have paths : ModePaths ImportGraph.sampleConfig ordersLink.filePath := by decide +kernel
  have source : ∀ link ∈ [ordersLink, itemLink],
      link.resolve { ImportGraph.sampleConfig with compiledMode := false } shopProject = .ok link := by
    intro link hlink
    exact toOption_eq_some.1 (by revert link; decide +kernel)
  have compiled : ∀ pair ∈ [(ordersLink, ordersFactory), (itemLink, itemFactory)],
      pair.1.resolve { ImportGraph.sampleConfig with compiledMode := true } shopProject = .ok pair.2 := by
    intro pair hpair
    exact toOption_eq_some.1 (by revert pair; decide +kernel)
  have agree (link factory : Link) (pages : link.filePath = ordersLink.filePath)
      (bySource : link ∈ [ordersLink, itemLink])
      (byFactory : (link, factory) ∈ [(ordersLink, ordersFactory), (itemLink, itemFactory)]) :
      ModeLinks ImportGraph.sampleConfig shopProject link.toEntry link factory := by
    have modes := @resolve_modes _ _ _ shopProject link.toEntry (pages ▸ paths)
    rw [source link bySource, compiled _ byFactory] at modes
    obtain - | agree := modes
    exact agree
  exact ⟨paths, agree ordersLink ordersFactory rfl (by decide) (by decide),
    agree itemLink itemFactory rfl (by decide) (by decide)⟩

end RouteTrim.Route
