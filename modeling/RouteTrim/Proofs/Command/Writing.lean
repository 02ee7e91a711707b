import RouteTrim.Proofs.Command.Session
import RouteTrim.Proofs.Pass.DeepLinking
import RouteTrim.Proofs.Settings.Build
import RouteTrim.Proofs.Store.Loading

/-!
# What deep linking writes to the disk

A run of `deeplinks` reads the sources of a project into a store, lets the pass put the registry
into its place, and writes the one file back that the pass changed. Apart from line ends, only the
range that the registry takes the place of changes on the disk. Line ends do change: texts are read
with all of them unified and written as they were read, so the parts in front of the registry and
behind it come back with line feeds (`deepLinks_frame`). Only a file without carriage returns is
preserved byte for byte.
-/

set_option autoImplicit false

namespace RouteTrim.Command

open RouteTrim.Disk (readBack)
open RouteTrim.Pass
open RouteTrim.Path (WorkingFolder)
open RouteTrim.Route
open RouteTrim.Settings (BuildConfig Environment Service)
open RouteTrim.Tree (Parser Source Span)

/-! ## The range that is replaced -/

/-- The part of a file that a registry takes the place of, and what is written in front of the
registry: in compiled mode the value of the one assignment to the registry field, else the third
argument of the root method or the empty part behind the arguments. -/
def RegistryRange (config : BuildConfig) (source : Source) (part : Span)
    (lead : List Char) : Prop :=
  if config.compiledMode then
    lead = [] ∧ ∃ assignment value, registryAssignments source config = [assignment] ∧
      assignment.child? .right = some value ∧ part = value.span
  else ∃ call, rootMethodCall source config = .ok call ∧
    registrySlot call.callArguments = some (part, lead)

theorem placeRegistry_range [Parser] {config : BuildConfig} {target text registry patched : String}
    {replaced : Bool} (h : placeRegistry config target text registry = .ok (patched, replaced)) :
    ∃ part lead, RegistryRange config (.ofText text target) part lead ∧
      patched = (Source.ofText text target).replace part (String.ofList lead ++ registry) := by
  unfold placeRegistry at h
  unfold RegistryRange
  cases hmode : config.compiledMode with
  | true =>
    rw [hmode, if_pos rfl] at h
    obtain ⟨patched, hpatched, h⟩ := bind_eq_ok.1 h
    obtain ⟨rfl, rfl⟩ := Prod.mk.inj (Except.ok.inj h)
    obtain ⟨assignment, value, hassignment, hright, rfl⟩ := setRegistryField_eq_ok.1 hpatched
    refine ⟨value.span, [], ?_, by rw [String.ofList_nil, String.empty_append]⟩
    rw [if_pos rfl]
    exact ⟨rfl, assignment, value, hassignment, hright, rfl⟩
  | false =>
    rw [hmode, if_neg (by simp)] at h
    obtain ⟨_, -, h⟩ := bind_eq_ok.1 h
    obtain ⟨patched, hpatched, h⟩ := bind_eq_ok.1 h
    obtain ⟨rfl, rfl⟩ := Prod.mk.inj (Except.ok.inj h)
    obtain ⟨call, part, lead, hcall, hslot, rfl⟩ := putRegistry_eq_ok.1 hpatched
    refine ⟨part, lead, ?_, rfl⟩
    rw [if_neg (by simp)]
    exact ⟨call, hcall, hslot⟩

/-! ## The file that is written -/

/-- A registry was written into a file. The file held three parts; the one in the middle was read as
the range of the registry and is replaced, and the other two are written as they were read. -/
structure Registered [WorkingFolder] [Parser] (config : BuildConfig) (disk after : Disk)
    (place : List Path.Segment)
    (front old new back : String) : Prop where
  target : disk.placeOf (Path.normalize config.registrationTargetPath) = .ok place
  before : disk.itemAt? place = some (.file (front.toUTF8 ++ old.toUTF8 ++ back.toUTF8))
  after : after = disk.put place
    (.file ((readBack front).toUTF8 ++ new.toUTF8 ++ (readBack back).toUTF8))
  replaced : ∃ files links part lead,
    let text := readBack (front ++ old ++ back)
    FileStore.loadTree disk config.srcDir [".ts"] = .ok files ∧
    projectLinks files config = .ok links ∧
    RegistryRange config (.ofText text config.registrationTargetPath) part lead ∧
    text.toList.take part.start = (readBack front).toList ∧
    part.slice text.toList = (readBack old).toList ∧
    text.toList.drop part.stop = (readBack back).toList ∧
    new = String.ofList lead ++ registryText links

/-- Of parts without carriage returns not a byte changes. -/
theorem Registered.exact [WorkingFolder] [Parser] {config : BuildConfig} {disk after : Disk}
    {place : List Path.Segment}
    {front old new back : String} (h : Registered config disk after place front old new back)
    (hfront : '\r' ∉ front.toList) (hback : '\r' ∉ back.toList) :
    after = disk.put place (.file (front.toUTF8 ++ new.toUTF8 ++ back.toUTF8)) := by
  have written := h.after
  rwa [Disk.readBack_eq_self hfront, Disk.readBack_eq_self hback] at written

theorem exists_parts {bytes : ByteArray} {text : String} (h : Disk.textOf bytes = .ok text)
    (part : Span) : ∃ front old back : String,
      bytes = front.toUTF8 ++ old.toUTF8 ++ back.toUTF8 ∧ text = readBack (front ++ old ++ back) ∧
      text.toList.take part.start = (readBack front).toList ∧
      part.slice text.toList = (readBack old).toList ∧
      text.toList.drop part.stop = (readBack back).toList := by
  unfold Disk.textOf at h
  split at h
  · next raw hraw =>
    obtain rfl := Except.ok.inj h
    rw [String.toList_ofList]
    have cut := Span.take_slice_drop part (Text.unifyNewlines raw.toList)
    obtain ⟨rest, back, hrest, hparts, hback⟩ := Disk.unifyNewlines_eq_append cut.symm
    obtain ⟨front, old, rfl, hfront, hold⟩ := Disk.unifyNewlines_eq_append hparts
    have whole : raw = String.ofList front ++ String.ofList old ++ String.ofList back := by
      rw [← String.ofList_append, ← String.ofList_append, ← hrest, String.ofList_toList]
    refine ⟨String.ofList front, String.ofList old, String.ofList back, ?_, ?_, ?_⟩
    · rw [← Text.Utf8.toUTF8_of_decode? hraw, whole]
      simp [String.toUTF8, String.toByteArray_append]
    · rw [← whole]
      rfl
    · simp only [readBack, String.toList_ofList]
      exact ⟨hfront.symm, hold.symm, hback.symm⟩
  · exact absurd h (by simp)

theorem writeFiles_set [WorkingFolder] (disk : Disk) {store : FileStore} {target text : String}
    (patched : String)
    (clean : store.dirty = []) (stored : store.get? target = some text) :
    (store.set target patched).writeFiles (store.set target patched).dirtyPaths disk =
      if patched = text then ⟨disk, [], none⟩
      else match disk.writeText (Path.tidy (Path.normalize target)) patched with
        | .error fault => ⟨disk, [], some fault⟩
        | .ok disk => ⟨disk, [Path.normalize target], none⟩ := by
  by_cases same : patched = text
  · subst same
    have nothing : store.dirtyPaths = [] := by simp [FileStore.dirtyPaths, clean]
    rw [FileStore.set_of_get? stored, nothing, if_pos rfl]
    rfl
  · have dirty : (store.set target patched).dirty = [Path.normalize target] := by
      have other : store.files.get? (Path.normalize target) ≠ some patched := fun h =>
        same (Option.some.inj (h.symm.trans stored))
      simp [FileStore.set, other, clean]
    have kept : (store.set target patched).files.get? (Path.normalize target) = some patched :=
      (OrderedMap.get?_insert ..).trans (if_pos rfl)
    have one : (store.set target patched).dirtyPaths = [Path.normalize target] := by
      refine List.perm_singleton.1 ((List.perm_ext_iff_of_nodup (FileStore.nodup_dirtyPaths _)
        (List.pairwise_singleton ..)).2 fun path => ?_)
      rw [FileStore.mem_dirtyPaths, dirty, List.mem_singleton]
      refine ⟨And.right, ?_⟩
      rintro rfl
      exact ⟨FileStore.mem_paths_of_get? kept, rfl⟩
    rw [one, if_neg same]
    unfold FileStore.writeFiles
    rw [kept, Option.getD_some]
    cases disk.writeText (Path.tidy (Path.normalize target)) patched <;> rfl

theorem plain_resolvePath (rootDir : String) (value : Value) :
    Text.backslash ∉ (Settings.resolvePath rootDir value).toList := by
  unfold Settings.resolvePath
  split
  · dsimp only
    split <;> exact Path.plain_normalize _
  · simp

/-- The paths that a build takes from its settings have no backslashes. -/
structure PlainPaths (config : BuildConfig) : Prop where
  srcDir : Text.backslash ∉ config.srcDir.toList
  rootDescriptorPath : Text.backslash ∉ config.rootDescriptorPath.toList
  frameworkEntryPoint : Text.backslash ∉ config.frameworkEntryPoint.toList

theorem plainPaths_of_build {settings : Settings} {config : BuildConfig}
    (h : Settings.build settings = .ok config) : PlainPaths config := by
  have built := Settings.built_of_build h
  constructor
  · rw [built.srcDir]
    exact plain_resolvePath _ _
  · rw [built.rootDescriptorPath]
    exact plain_resolvePath _ _
  · rw [built.frameworkEntryPoint]
    split
    · rw [Path.join, String.toList_ofList, built.frameworkDir]
      exact Path.plain_joinChars (plain_resolvePath _ _) (by decide)
    · exact plain_resolvePath _ _

/-! ## A run -/

section

variable {disk : Disk} {config : BuildConfig} {files : FileStore}

theorem registered_of_writeText [WorkingFolder] [Parser] (tree : disk.IsTree)
    (names : disk.HasPlainNames)
    (plain : Text.backslash ∉ config.srcDir.toList)
    (loaded : FileStore.loadTree disk config.srcDir [".ts"] = .ok files)
    {links : List Link} (found : projectLinks files config = .ok links) {text patched : String}
    (stored : files.get? config.registrationTargetPath = some text) {replaced : Bool}
    (placed : placeRegistry config config.registrationTargetPath text (registryText links)
      = .ok (patched, replaced)) {after : Disk}
    (written : disk.writeText (Path.tidy (Path.normalize config.registrationTargetPath)) patched
      = .ok after) :
    ∃ place front old new back, Registered config disk after place front old new back := by
  obtain ⟨-, read⟩ := FileStore.readText_of_loadTree tree names plain loaded stored
  obtain ⟨place, bytes, hplace, hitem, htext⟩ := Disk.readText_eq_ok.1 read
  obtain ⟨place', hplace', -, hafter⟩ := Disk.writeText_eq_ok written
  obtain rfl : place = place' :=
    Except.ok.inj ((Disk.placeOf_tidy hplace).symm.trans hplace')
  obtain ⟨part, lead, hrange, hpatched⟩ := placeRegistry_range placed
  obtain ⟨front, old, back, hbytes, hread, hfront, hold, hback⟩ := exists_parts htext part
  refine ⟨place, front, old, String.ofList lead ++ registryText links, back, hplace, ?_, ?_, ?_⟩
  · rw [hitem, hbytes]
  · have parts : patched
        = readBack front ++ (String.ofList lead ++ registryText links) ++ readBack back := by
      rw [hpatched, Source.replace, Span.replace]
      show String.ofList (text.toList.take part.start ++ _ ++ text.toList.drop part.stop) = _
      rw [hfront, hback, String.ofList_append, String.ofList_append, String.ofList_toList,
        String.ofList_toList, String.ofList_toList]
    rw [hafter, parts]
    simp [String.toUTF8, String.toByteArray_append]
  · rw [← hread]
    exact ⟨files, links, part, lead, loaded, found, hrange, hfront, hold, hback, rfl⟩

section

variable [WorkingFolder] [Console]

/-- What a run ends with that shows the links it found and writes the files that changed. It writes
nothing if the links are not shown. -/
def linked? (result : DeepLinks) (writing : FileStore.Writing) (disk : Disk) :
    Except Failure Unit × Disk :=
  match Run.shown? [.links result.links, .registry result.registry] with
  | .error failure => (.error failure, disk)
  | .ok _ => (Run.written? writing >>= fun written =>
      Run.shown? (Display.linkingResult result.target result.replaced written), writing.disk)

theorem ends_written {result : DeepLinks} {writing : FileStore.Writing}
    (h : files.writeFiles files.dirtyPaths disk = writing) :
    Run.Ends (do
      Run.display [.links result.links, .registry result.registry]
      let written ← Run.writeDirty files
      Run.display (Display.linkingResult result.target result.replaced written)) disk
      (linked? result writing disk).1 (linked? result writing disk).2 := by
  have shown : Run.Ends _ disk _ disk :=
    Run.ends_display [.links result.links, .registry result.registry]
  have write := Run.ends_writeDirty h
  unfold linked?
  generalize Run.shown? [.links result.links, .registry result.registry] = first at shown ⊢
  cases first with
  | error failure => exact shown.bind_error
  | ok _ =>
    refine shown.bind ?_
    cases hwritten : Run.written? writing with
    | error failure =>
      rw [hwritten] at write
      exact write.bind_error
    | ok written =>
      rw [hwritten] at write
      exact write.bind (Run.ends_display _)

end

section

variable {environment : Environment} {options : Options}

/-- A command goes on with the build configuration and the sources of the project. -/
theorem ends_loaded [WorkingFolder] [Yaml.Reader]
    (built : (Service.buildConfig { sources := sourcesOf options } environment disk).result
      = .ok config) (loaded : FileStore.loadTree disk config.srcDir [".ts"] = .ok files)
    {rest : BuildConfig → FileStore → Run Unit} {result : Except Failure Unit} {after : Disk}
    (h : Run.Ends (rest config files) disk result after) : Run.Ends (do
      let config ← buildConfig environment options
      let files ← MonadExcept.ofExcept (FileStore.loadTree (← Run.disk) config.srcDir [".ts"])
      rest config files) disk result after :=
  (Run.ends_buildConfig built).bind (Run.ends_disk.bind ((Run.ends_ofExcept loaded).bind h))

variable [WorkingFolder] [Parser] [Yaml.Reader] [Console]

theorem ends_deepLinks_write
    (built : (Service.buildConfig { sources := sourcesOf options } environment disk).result
      = .ok config) (loaded : FileStore.loadTree disk config.srcDir [".ts"] = .ok files)
    (write : options.write = true) {result : DeepLinks} {workspace : Workspace}
    (linked : Pass.run (deepLink config) files = (.ok result, workspace))
    {writing : FileStore.Writing}
    (h : workspace.files.writeFiles workspace.files.dirtyPaths disk = writing) :
    Run.Ends (deepLinks environment options) disk (linked? result writing disk).1
      (linked? result writing disk).2 := by
  unfold deepLinks
  refine ends_loaded built loaded ?_
  rw [write]
  exact (Run.ends_ofPass linked).bind (ends_written h)

/-- Deep linking leaves the disk as it is, or it writes one file: the one that the registry of the
project's links was put into. -/
theorem ends_deepLinks_writeText (environment : Environment) (options : Options) (disk : Disk) :
    ∃ result after, Run.Ends (deepLinks environment options) disk result after ∧
      (after = disk ∨ options.write = true ∧ Run.Showing result ∧
        ∃ config files links text patched replaced,
          (Service.buildConfig { sources := sourcesOf options } environment disk).result
            = .ok config ∧
          FileStore.loadTree disk config.srcDir [".ts"] = .ok files ∧
          projectLinks files config = .ok links ∧
          files.get? config.registrationTargetPath = some text ∧
          placeRegistry config config.registrationTargetPath text (registryText links)
            = .ok (patched, replaced) ∧
          disk.writeText (Path.tidy (Path.normalize config.registrationTargetPath)) patched
            = .ok after) := by
  rcases built :
      (Service.buildConfig { sources := sourcesOf options } environment disk).result with
    failure | config
  · exact ⟨_, _, (Run.ends_buildConfig built).bind_error, .inl rfl⟩
  rcases loaded : FileStore.loadTree disk config.srcDir [".ts"] with failure | files
  · exact ⟨_, _, (Run.ends_buildConfig built).bind
      (Run.ends_disk.bind (Run.ends_ofExcept loaded).bind_error), .inl rfl⟩
  cases write : options.write with
  | false =>
    unfold deepLinks
    rw [write]
    rcases found : Pass.run (findLinks config) files with ⟨failure | links, workspace⟩
    · exact ⟨_, _, ends_loaded built loaded (Run.ends_ofPass found).bind_error, .inl rfl⟩
    · exact ⟨_, _, ends_loaded built loaded ((Run.ends_ofPass found).bind (Run.ends_display _)),
        .inl rfl⟩
  | true =>
    rcases ran : Pass.run (deepLink config) files with ⟨failure | result, workspace⟩
    · unfold deepLinks
      rw [write]
      exact ⟨_, _, ends_loaded built loaded (Run.ends_ofPass ran).bind_error, .inl rfl⟩
    refine ⟨_, _, ends_deepLinks_write built loaded write ran rfl, ?_⟩
    obtain ⟨links, found, linked⟩ := bind_eq_ok.1 (deepLink_allOrNothing.eq_ok ran)
    obtain ⟨text, patched, replaced, htext, placed, -, hafter⟩ := linkFiles_eq_ok.1 linked
    have stored := FileStore.content_eq_ok.1 htext
    rw [hafter, writeFiles_set disk patched (FileStore.dirty_loadTree loaded) stored, linked?]
    cases Run.shown? [.links result.links, .registry result.registry] with
    | error failure => exact .inl rfl
    | ok _ =>
      by_cases same : patched = text
      · rw [if_pos same]
        exact .inl rfl
      rw [if_neg same]
      cases written :
          disk.writeText (Path.tidy (Path.normalize config.registrationTargetPath)) patched with
      | error fault => exact .inl rfl
      | ok after =>
        exact .inr ⟨rfl, Run.showing_shown? _, config, files, links, text, patched, replaced, rfl,
          loaded, found, stored, placed, written⟩

theorem ends_deepLinks (tree : disk.IsTree) (names : disk.HasPlainNames)
    (environment : Environment) (options : Options) :
    ∃ result after, Run.Ends (deepLinks environment options) disk result after ∧
      (after = disk ∨ options.write = true ∧ Run.Showing result ∧
        ∃ config place front old new back,
          (Service.buildConfig { sources := sourcesOf options } environment disk).result
            = .ok config ∧ Registered config disk after place front old new back) := by
  obtain ⟨result, after, ends, unchanged | ⟨write, showing, config, files, links, text, patched,
    replaced, built, loaded, found, stored, placed, written⟩⟩ :=
    ends_deepLinks_writeText environment options disk
  · exact ⟨result, after, ends, .inl unchanged⟩
  obtain ⟨settings, -, described⟩ := bind_eq_ok.1 built
  obtain ⟨place, front, old, new, back, registered⟩ := registered_of_writeText tree names
    (plainPaths_of_build described).srcDir loaded found stored placed written
  exact ⟨result, after, ends,
    .inr ⟨write, showing, config, place, front, old, new, back, built, registered⟩⟩

end

end

/-- **Deep linking preserves what is outside of the replaced range, up to line ends.** Whatever
`deeplinks` is run with, the disk stays as it is, or the run was told to write and one file is
written: the middle part of it, which is the range of the registry, is replaced; of the parts in
front of it and behind it only the line ends change, and where there are no carriage returns nothing
does. The run succeeds then, unless the console refuses what it shows. -/
theorem deepLinks_frame [WorkingFolder] [Parser] [Yaml.Reader] [Json.Host] [Console]
    {environment : Environment} {disk : Disk} {arguments : List String} {options : Options}
    (tree : disk.IsTree) (names : disk.HasPlainNames)
    (asked : readArguments arguments = .command .deeplinks options) :
    let outcome := run environment disk arguments
    outcome.session.disk = disk ∨
      options.write = true ∧ (outcome.ending.status? = some 0 ∨ outcome.ending.IsRefused) ∧
      ∃ config place front old new back,
        (Service.buildConfig { sources := sourcesOf options } environment disk).result
          = .ok config ∧
        Registered config disk outcome.session.disk place front old new back ∧
        ('\r' ∉ front.toList → '\r' ∉ back.toList → outcome.session.disk
          = disk.put place (.file (front.toUTF8 ++ new.toUTF8 ++ back.toUTF8))) := by
  obtain ⟨result, after, body, frame⟩ := ends_deepLinks tree names environment options
  dsimp only
  rcases frame with rfl | ⟨write, showing, config, place, front, old, new, back, built, registered⟩
  · exact .inl (run_of_body asked rfl body).1
  · obtain ⟨hdisk, ending⟩ := run_of_showing asked rfl rfl body showing
    rw [hdisk]
    exact .inr ⟨write, ending, config, place, front, old, new, back, built, registered,
      registered.exact⟩

/-- The root descriptor of a project of nothing else. -/
def siteText : String :=
  "@NgModule(\x7bimports:[IonicModule.forRoot(A)]\x7d) class M \x7b\x7d"

/-- The root descriptor with the registry of no links. -/
def patchedText : String :=
  "@NgModule(\x7bimports:[IonicModule.forRoot(A, \x7b\x7d, " ++ registryText [] ++
    ")]\x7d) class M \x7b\x7d"

/-- The path of the root descriptor. -/
def sitePath : String := "/p/src/app/app.module.ts"

/-- The place of the root descriptor. -/
def sitePlace : List Path.Segment :=
  ["p".toList, "src".toList, "app".toList, "app.module.ts".toList]

def siteDisk (text : String) : Disk where
  items := .ofList [(sitePlace.take 1, .folder), (sitePlace.take 2, .folder),
    (sitePlace.take 3, .folder), (sitePlace, .file text.toUTF8)]

/-- The command line that deep links the project. -/
def siteArguments : List String :=
  ["deeplinks", "--root", "/p", "--write"]

/-- What the command line asks for. -/
def siteOptions : Options :=
  { root := "/p", write := true }

/-- A build of the project that turns the text of its root descriptor into another one. -/
def Patches [WorkingFolder] [Parser] (text patched : String) (config : BuildConfig) : Prop :=
  config.srcDir = "/p/src" ∧ config.registrationTargetPath = sitePath ∧
    (projectLinks (.ofList [(sitePath, text)]) config).toOption = some [] ∧
    (placeRegistry config sitePath text (registryText [])).toOption = some (patched, false)

instance (text patched : String) : DecidablePred (Patches text patched) :=
  fun _ => inferInstanceAs (Decidable (_ ∧ _ ∧ _ ∧ _))

/-- A run over the project writes the text with the registry. -/
theorem run_siteDisk {text patched : String} (changed : patched ≠ readBack text)
    (patches : (Service.buildConfig { sources := sourcesOf siteOptions } .empty
      (siteDisk text)).result.toOption.any (Patches (readBack text) patched) = true) :
    let outcome := run .empty (siteDisk text) siteArguments
    outcome.ending = .finished 0 ∧
      outcome.session.disk = (siteDisk text).put sitePlace (.file patched.toUTF8) := by
  generalize built : (Service.buildConfig { sources := sourcesOf siteOptions } .empty
    (siteDisk text)).result = result at patches
  obtain ⟨config, hresult, patches⟩ := (Option.any_eq_true ..).1 patches
  obtain rfl := toOption_eq_some.1 hresult
  obtain ⟨src, target, found, placed⟩ : Patches (readBack text) patched config :=
    of_decide_eq_true patches
  have loaded : FileStore.loadTree (siteDisk text) config.srcDir [".ts"]
      = .ok (.ofList [(sitePath, readBack text)]) := by
    have folder : (siteDisk text).find (Path.tidy "/p/src") = .ok (sitePlace.take 2, .folder) := rfl
    rw [src, FileStore.loadTree_of_sorted folder rfl (List.pairwise_singleton ..)]
    show FileStore.ofList <$> ([(sitePlace.drop 2, text.toUTF8)].mapM fun file => do
      return (FileStore.pathBelow "/p/src" file.1, ← Disk.textOf file.2) : Except Failure _) = _
    rw [List.mapM_cons, List.mapM_nil, Disk.textOf_toUTF8]
    rfl
  have stored : (FileStore.ofList [(sitePath, readBack text)]).get? config.registrationTargetPath
      = some (readBack text) := by
    rw [target]
    rfl
  rw [← target] at placed
  have outcome : projectLinks (.ofList [(sitePath, readBack text)]) config
        >>= linkFiles config (.ofList [(sitePath, readBack text)])
      = .ok (⟨[], registryText [], config.registrationTargetPath, false⟩,
        (FileStore.ofList [(sitePath, readBack text)]).set config.registrationTargetPath patched) :=
    bind_eq_ok.2 ⟨[], toOption_eq_some.1 found, linkFiles_eq_ok.2
      ⟨_, _, _, FileStore.content_eq_ok.2 stored, toOption_eq_some.1 placed, rfl, rfl⟩⟩
  have ends : AllOrNothing (deepLink config) (.ofList [(sitePath, readBack text)]) _ :=
    deepLink_allOrNothing
  rw [outcome] at ends
  obtain ⟨notices, linked⟩ := Ends.run ends
  have written := writeFiles_set (siteDisk text) patched (FileStore.dirty_loadTree loaded) stored
  have stands : (siteDisk text).writeText
      (Path.tidy (Path.normalize config.registrationTargetPath)) patched
        = .ok ((siteDisk text).put sitePlace (.file patched.toUTF8)) := by
    rw [target]
    rfl
  rw [if_neg changed, stands] at written
  have asked : readArguments siteArguments = .command .deeplinks siteOptions := by decide +kernel
  have body := ends_deepLinks_write built loaded rfl linked written
  have shown : linked? ⟨[], registryText [], config.registrationTargetPath, false⟩
      ⟨(siteDisk text).put sitePlace (.file patched.toUTF8),
        [Path.normalize config.registrationTargetPath], none⟩ (siteDisk text)
      = (.ok (), (siteDisk text).put sitePlace (.file patched.toUTF8)) := by
    have first : Run.shown? [.links [], .registry (registryText [])] = .ok () := by
      rw [Run.shown?, if_pos (by decide +kernel)]
    have last : Run.shown? (Display.linkingResult sitePath false [Path.normalize sitePath]) = .ok () := by
      rw [Run.shown?, if_pos (by decide +kernel)]
    rw [target, linked?, first]
    exact Prod.ext (bind_eq_ok.2 ⟨_, rfl, last⟩) rfl
  rw [shown] at body
  obtain ⟨hdisk, ending⟩ := run_of_body asked rfl body
  exact ⟨ending.resolve_right (by simp), hdisk⟩

theorem deepLinks_frame_site :
    let outcome := run .empty (siteDisk siteText) siteArguments
    outcome.ending = .finished 0 ∧ outcome.session.disk ≠ siteDisk siteText ∧
      ∃ config place front old new back,
        Registered config (siteDisk siteText) outcome.session.disk place front old new back ∧
        ('\r' ∉ front.toList → '\r' ∉ back.toList → outcome.session.disk
          = (siteDisk siteText).put place (.file (front.toUTF8 ++ new.toUTF8 ++ back.toUTF8))) := by
  have evaluated : patchedText ≠ readBack siteText ∧
      (Service.buildConfig { sources := sourcesOf siteOptions } .empty
        (siteDisk siteText)).result.toOption.any (Patches (readBack siteText) patchedText) = true := by
    decide +kernel
  obtain ⟨hending, hdisk⟩ := run_siteDisk evaluated.1 evaluated.2
  have changed : (run .empty (siteDisk siteText) siteArguments).session.disk ≠ siteDisk siteText := by
    intro same
    have item : ((siteDisk siteText).put sitePlace (.file patchedText.toUTF8)).itemAt? sitePlace
        = (siteDisk siteText).itemAt? sitePlace := by rw [← hdisk, same]
    exact absurd item (by decide +kernel)
  have tree : (siteDisk siteText).IsTree := ⟨by decide, by decide⟩
  have names : (siteDisk siteText).HasPlainNames := by unfold Disk.HasPlainNames; decide
  have asked : readArguments siteArguments = .command .deeplinks siteOptions := by decide +kernel
  have frame := (deepLinks_frame tree names asked).resolve_left changed
  obtain ⟨-, -, config, place, front, old, new, back, -, frame⟩ := frame
  exact ⟨hending, changed, config, place, front, old, new, back, frame⟩

/-- **A registry that is put into a file with carriage returns takes them away.** Nothing is
replaced here, only put in, but no cut of the old bytes is found in the new ones. -/
theorem deepLinks_takes_carriageReturns :
    let text := "// site\r\n" ++ siteText
    let outcome := run .empty (siteDisk text) siteArguments
    outcome.ending = .finished 0 ∧ ∃ bytes,
      outcome.session.disk.itemAt? sitePlace = some (.file bytes) ∧
      bytes = ("// site\n" ++ patchedText).toUTF8 ∧
      ∀ front new back, text.toUTF8 = front ++ back → bytes ≠ front ++ new ++ back := by
  have evaluated : "// site\n" ++ patchedText ≠ readBack ("// site\r\n" ++ siteText) ∧
      (Service.buildConfig { sources := sourcesOf siteOptions }
        .empty (siteDisk ("// site\r\n" ++ siteText))).result.toOption.any
          (Patches (readBack ("// site\r\n" ++ siteText)) ("// site\n" ++ patchedText)) = true := by
    decide +kernel
  obtain ⟨hending, hdisk⟩ := run_siteDisk evaluated.1 evaluated.2
  refine ⟨hending, _, by rw [hdisk]; rfl, rfl, fun front new back held kept => ?_⟩
  have some_old : (13 : UInt8) ∈ ("// site\r\n" ++ siteText).toUTF8.data := by decide +kernel
  have none_new : (13 : UInt8) ∉ ("// site\n" ++ patchedText).toUTF8.data := by decide +kernel
  rw [held, ByteArray.data_append, Array.mem_append] at some_old
  rw [kept, ByteArray.data_append, ByteArray.data_append, Array.mem_append,
    Array.mem_append] at none_new
  exact none_new (some_old.imp_left .inl)

end RouteTrim.Command
