import RouteTrim.Pass.DeepLinking
import RouteTrim.Proofs.Pass.Workspace
import RouteTrim.Proofs.Route.Discovery
import RouteTrim.Proofs.Route.Factory
import RouteTrim.Proofs.Route.Patch
import RouteTrim.Proofs.Store.Loading

/-!
# Deep linking twice

Deep linking reads a project's routes and writes one of the project's files, which may be among
those that it reads. A second run finds what the first one left: the same links, and their registry
in its place.

For this the file that is written must not be read for what is replaced in it. Usually it is not
read at all, because neither a root descriptor nor a factory is a page source. A configuration that
makes it one can have routes in the very text that a registry takes the place of.
-/

set_option autoImplicit false

namespace RouteTrim.Pass

open RouteTrim.Path (WorkingFolder)
open RouteTrim.Route
open RouteTrim.Settings (BuildConfig)
open RouteTrim.Tree

/-! ## What a run does -/

def placeRegistry [Parser] (config : BuildConfig) (target text registry : String) :
    Except Failure (String × Bool) :=
  if config.compiledMode then do
    let patched ← patchFactory text registry config target
    return (patched, false)
  else do
    let replaced ← Option.isSome <$> existingRegistry text config target
    let patched ← patchSite text registry config target
    return (patched, replaced)

def linkFiles [Parser] (config : BuildConfig) (files : FileStore) (links : List Link) :
    Except Failure (DeepLinks × FileStore) := do
  let target := config.registrationTargetPath
  let text ← files.content target
  let (patched, replaced) ← placeRegistry config target text (registryText links)
  return (⟨links, registryText links, target, replaced⟩, files.set target patched)

section

variable {config : BuildConfig} {files : FileStore}

theorem ends_findLinks [WorkingFolder]
    [Parser] : Ends (findLinks config) files (projectLinks files config) files := by
  have found : (projectRoutes files config).result.1 = projectLinks files config := by
    unfold projectRoutes
    cases projectLinks files config <;> rfl
  rw [← found]
  exact ends_store.bind (ends_ofNoted _)

theorem ends_warnOfExisting [Parser] (text target : String) :
    Ends (warnOfExisting config text target) files
      (Option.isSome <$> existingRegistry text config target) files := by
  unfold warnOfExisting
  cases hexisting : existingRegistry text config target with
  | error failure => exact (ends_liftM (.error failure)).bind_error
  | ok existing =>
    refine (ends_liftM (.ok existing)).bind ?_
    cases existing with
    | none => exact ends_pure false
    | some registry => exact (ends_tell _).bind (ends_pure true)

/-- **Writing some links changes one file, or nothing.** -/
theorem updateSite_allOrNothing [Parser] (links : List Link) :
    AllOrNothing (updateSite config links) files (linkFiles config files links) := by
  have written (patched : String) (replaced : Bool) : AllOrNothing (do
      setContent config.registrationTargetPath patched
      tell (.linksWritten links.length config.registrationTargetPath)
      return (⟨links, registryText links, config.registrationTargetPath, replaced⟩ : DeepLinks))
      files (.ok (⟨links, registryText links, config.registrationTargetPath, replaced⟩,
        files.set config.registrationTargetPath patched)) :=
    (ends_setContent _ _).bind ((ends_tell _).bind (ends_pure _))
  unfold updateSite linkFiles placeRegistry
  refine .read (ends_content _) fun text => ?_
  cases config.compiledMode with
  | true =>
    simp only [if_true, bind_assoc, pure_bind]
    exact .read (ends_liftM _) fun patched => written patched false
  | false =>
    simp only [Bool.false_eq_true, if_false, bind_assoc, pure_bind]
    exact .read (ends_warnOfExisting text _) fun replaced =>
      .read (ends_liftM _) fun patched => written patched replaced

/-- **A run of deep linking writes the project's links, or changes nothing.** -/
theorem deepLink_allOrNothing [WorkingFolder] [Parser] :
    AllOrNothing (deepLink config) files (projectLinks files config >>= linkFiles config files) :=
  .read ends_findLinks updateSite_allOrNothing

theorem linkFiles_eq_ok [Parser] {links : List Link} {result : DeepLinks} {after : FileStore} :
    linkFiles config files links = .ok (result, after) ↔ ∃ text patched replaced,
      files.content config.registrationTargetPath = .ok text ∧
      placeRegistry config config.registrationTargetPath text (registryText links)
        = .ok (patched, replaced) ∧
      result = ⟨links, registryText links, config.registrationTargetPath, replaced⟩ ∧
      after = files.set config.registrationTargetPath patched := by
  unfold linkFiles
  simp only [bind_eq_ok, Prod.exists]
  refine exists_congr fun text => ?_
  constructor
  · rintro ⟨htext, patched, replaced, hplaced, hresult⟩
    obtain ⟨rfl, rfl⟩ := Prod.mk.inj (Except.ok.inj hresult)
    exact ⟨patched, replaced, htext, hplaced, rfl, rfl⟩
  · rintro ⟨patched, replaced, htext, hplaced, rfl, rfl⟩
    exact ⟨htext, patched, replaced, hplaced, rfl⟩

end

/-! ## The edit of a run -/

/-- The edit of a file that writes some links into it, as the mode of the build has it. -/
def linksEdit? [Parser] (config : BuildConfig) (text : String) (links : List Link) : Option Edit :=
  let source := Source.ofText text config.registrationTargetPath
  if config.compiledMode then fieldEdit? source config (registryWriting links)
  else siteEdit? source config (registryWriting links)

section

variable {config : BuildConfig} {text patched : String} {links : List Link} {replaced : Bool}

theorem placeRegistry_edit [Parser] (h : placeRegistry config config.registrationTargetPath text
      (registryText links) = .ok (patched, replaced)) :
    ∃ e, linksEdit? config text links = some e ∧ e.Plain ∧
      patched = (Source.ofText text config.registrationTargetPath).replace e.span
        (String.ofList e.text) := by
  unfold placeRegistry at h
  unfold linksEdit?
  cases hmode : config.compiledMode with
  | true =>
    rw [hmode, if_pos rfl] at h
    obtain ⟨patched, hpatched, h⟩ := bind_eq_ok.1 h
    obtain ⟨rfl, rfl⟩ := Prod.mk.inj (Except.ok.inj h)
    exact patchFactory_edit hpatched
  | false =>
    rw [hmode, if_neg (by simp)] at h
    obtain ⟨replaced, -, h⟩ := bind_eq_ok.1 h
    obtain ⟨patched, hpatched, h⟩ := bind_eq_ok.1 h
    obtain ⟨rfl, rfl⟩ := Prod.mk.inj (Except.ok.inj h)
    obtain ⟨_, _, e, -, -, edit, -, rfl⟩ := patchSite_edit hpatched
    exact ⟨e, edit, plain_siteEdit edit, rfl⟩

/-- **A registry that was put in its place is found there**, and put there again. -/
theorem placeRegistry_again [Parser] (oneLine : ∀ link ∈ links, link.OneLine)
    (parser : ∀ e ∈ linksEdit? config text links,
      (registryWriting links).Valid → ReadsEdit text.toList e)
    (h : placeRegistry config config.registrationTargetPath text (registryText links)
      = .ok (patched, replaced)) :
    placeRegistry config config.registrationTargetPath patched (registryText links)
      = .ok (patched, !config.compiledMode) := by
  obtain ⟨e, edit, -, heq⟩ := placeRegistry_edit h
  have revises := (parser e edit (valid_registryWriting oneLine)).revises config.registrationTargetPath
  rw [← heq] at revises
  unfold linksEdit? at edit
  unfold placeRegistry at h ⊢
  cases hmode : config.compiledMode with
  | true =>
    simp only [hmode, if_true] at h edit ⊢
    obtain ⟨put, hput, h⟩ := bind_eq_ok.1 h
    obtain ⟨rfl, rfl⟩ := Prod.mk.inj (Except.ok.inj h)
    have again : patchFactory put (registryText links) config config.registrationTargetPath
        = .ok put := (setRegistryField_edited edit revises _).trans hput
    rw [again]
    rfl
  | false =>
    simp only [hmode, Bool.false_eq_true, if_false] at h edit ⊢
    obtain ⟨_, -, h⟩ := bind_eq_ok.1 h
    obtain ⟨put, hput, h⟩ := bind_eq_ok.1 h
    obtain ⟨rfl, rfl⟩ := Prod.mk.inj (Except.ok.inj h)
    rw [existingRegistry_edited edit revises, patchSite_edited edit revises, hput]
    rfl

/-- The edit of a run in source mode replaces no registrar annotation: the one of the file has the
place of the registry in it. -/
theorem sparesRegistrars_of_source [Parser] {files : FileStore} {e : Edit}
    (mode : config.compiledMode = false)
    (edit : linksEdit? config text links = some e) :
    SparesRegistrars config files config.registrationTargetPath text e := by
  unfold linksEdit? at edit
  rw [mode, if_neg (by simp)] at edit
  exact fun _ _ _ => registrar_apart_siteEdit edit

end

/-! ## Two runs -/

/-- What a run did that wrote some links over a text. -/
structure Linked [WorkingFolder] [Parser] (config : BuildConfig) (files : FileStore) (text : String)
    (result : DeepLinks)
    (after : FileStore) (patched : String) : Prop where
  found : projectLinks files config = .ok result.links
  placed : placeRegistry config config.registrationTargetPath text (registryText result.links)
    = .ok (patched, result.replaced)
  result : result = ⟨result.links, registryText result.links, config.registrationTargetPath,
    result.replaced⟩
  files : after = files.set config.registrationTargetPath patched

section

variable {config : BuildConfig} {files : FileStore} {text : String} {result : DeepLinks}
  {after : Workspace}

/-- A run that succeeds found the links of the project and put their registry in its place. -/
theorem linked_of_run [WorkingFolder] [Parser]
    (success : Pass.run (deepLink config) files = (.ok result, after))
    (stored : files.get? config.registrationTargetPath = some text) :
    ∃ patched, Linked config files text result after.files patched := by
  obtain ⟨links, hlinks, hdone⟩ := bind_eq_ok.1 (deepLink_allOrNothing.eq_ok success)
  obtain ⟨text', patched, replaced, htext, hplaced, rfl, hafter⟩ := linkFiles_eq_ok.1 hdone
  obtain rfl := Option.some.inj (stored.symm.trans (FileStore.content_eq_ok.1 htext))
  exact ⟨patched, hlinks, hplaced, rfl, hafter⟩

theorem run_of_placed [WorkingFolder] [Parser] {links : List Link} {replaced : Bool}
    (found : projectLinks files config = .ok links)
    (stored : files.get? config.registrationTargetPath = some text)
    (placed : placeRegistry config config.registrationTargetPath text (registryText links)
      = .ok (text, replaced)) :
    ∃ notices, Pass.run (deepLink config) files = (.ok ⟨links, registryText links,
      config.registrationTargetPath, replaced⟩, ⟨files, notices⟩) := by
  have outcome : projectLinks files config >>= linkFiles config files
      = .ok (⟨links, registryText links, config.registrationTargetPath, replaced⟩, files) := by
    rw [found]
    exact linkFiles_eq_ok.2 ⟨text, text, replaced, FileStore.content_eq_ok.2 stored, placed, rfl,
      (FileStore.set_of_get? stored).symm⟩
  have ends : AllOrNothing (deepLink config) files _ := deepLink_allOrNothing
  rw [outcome] at ends
  exact Ends.run ends

end

/-- **Deep linking twice is deep linking once.** If a run succeeds, with texts without line ends,
and the parser reads the edited text as the edit of the tree, then a second run has the same result
and changes no file, but for the warning in source mode that a registry is replaced. The edit must
spare the routes of the project, and in compiled mode the registrars too. -/
theorem deepLink_again [WorkingFolder] [Parser] {config : BuildConfig} {files : FileStore}
    {text : String}
    {result : DeepLinks} {after : Workspace}
    (success : Pass.run (deepLink config) files = (.ok result, after))
    (stored : files.get? config.registrationTargetPath = some text)
    (oneLine : ∀ link ∈ result.links, link.OneLine)
    (parser : ∀ e ∈ linksEdit? config text result.links,
      (registryWriting result.links).Valid → ReadsEdit text.toList e)
    (routes : ∀ e ∈ linksEdit? config text result.links,
      SparesRoutes config files config.registrationTargetPath text e)
    (registrars : config.compiledMode = true → ∀ e ∈ linksEdit? config text result.links,
      SparesRegistrars config files config.registrationTargetPath text e) :
    ∃ notices, Pass.run (deepLink config) after.files
      = (.ok { result with replaced := !config.compiledMode }, ⟨after.files, notices⟩) := by
  obtain ⟨patched, linked⟩ := linked_of_run success stored
  obtain ⟨e, edit, plain, heq⟩ := placeRegistry_edit linked.placed
  have revises (path : String) : e.Revises (.ofText text path) (.ofText patched path) := by
    rw [heq]
    exact (parser e edit (valid_registryWriting oneLine)).revises path
  have spared : SparesRegistrars config files config.registrationTargetPath text e := by
    cases hmode : config.compiledMode with
    | true => exact registrars hmode e edit
    | false => exact sparesRegistrars_of_source hmode edit
  have found : projectLinks after.files config = .ok result.links := by
    rw [linked.files, projectLinks_set stored revises plain (routes e edit) spared, linked.found]
  have written : after.files.get? config.registrationTargetPath = some patched := by
    rw [linked.files, FileStore.get?_set, if_pos rfl]
  have again := run_of_placed found written (placeRegistry_again oneLine parser linked.placed)
  rw [linked.result]
  exact again

/-- The build of a project whose root descriptor is named like a page. -/
def pageConfig : BuildConfig :=
  { ImportGraph.sampleConfig with rootDescriptorPath := "/app/src/a.ts" }

/-- The same build with factories, which are named like descriptors. -/
def factoryConfig : BuildConfig :=
  { pageConfig with compiledMode := true, descriptorSuffix := ".ngfactory.ts" }

/-- A page that is the root descriptor too. -/
def pageText : String :=
  "@IonicPage() class P \x7b\x7d " ++
    "@NgModule(\x7bimports:[IonicModule.forRoot(A)]\x7d) class M \x7b\x7d"

/-- A descriptor that is the root factory too. -/
def factoryText : String :=
  "@NgModule(\x7b\x7d) class N \x7b\x7d this._DeepLinkConfigToken_1 = null;"

def pageProject : FileStore :=
  .ofList [("/app/src/a.ts", pageText),
    ("/app/src/a.module.ts", "@NgModule(\x7b\x7d) class N \x7b\x7d")]

/-- A project of one page, whose descriptor is the root factory too. -/
def factoryProject : FileStore :=
  .ofList [("/app/src/a.ts", "@IonicPage() class P \x7b\x7d"),
    ("/app/src/a.ngfactory.ts", factoryText)]

def pageLink : Link where
  className := "P"
  filePath := "/app/src/a.ts"
  name := "P"
  declaration := "@IonicPage()"
  modulePath := "./a.module"
  exportName := "N"
  moduleFile := "/app/src/a.module.ts"

/-- The link of the page to the factory of its descriptor. -/
def factoryLink : Link :=
  { pageLink with
    modulePath := "./a.ngfactory.ngfactory"
    exportName := "NNgFactory"
    moduleFile := "/app/src/a.ngfactory.ngfactory.ts" }

theorem oneLine_pageLink : pageLink.OneLine :=
  ⟨by decide, by decide, by simp [pageLink], by decide, by decide⟩

theorem oneLine_factoryLink : factoryLink.OneLine :=
  ⟨by decide, by decide, by simp [factoryLink, pageLink], by decide, by decide⟩

theorem exists_run [WorkingFolder] [Parser] {config : BuildConfig} {files : FileStore}
    {text : String} {links : List Link}
    (stored : files.get? config.registrationTargetPath = some text)
    (found : (projectLinks files config).toOption = some links)
    (placed : (placeRegistry config config.registrationTargetPath text
      (registryText links)).toOption.isSome = true) :
    ∃ result after, Pass.run (deepLink config) files = (.ok result, after) ∧
      result.links = links := by
  obtain ⟨⟨patched, replaced⟩, hplaced⟩ := Option.isSome_iff_exists.1 placed
  have ends : AllOrNothing (deepLink config) files _ := deepLink_allOrNothing
  rw [bind_eq_ok.2 ⟨links, toOption_eq_some.1 found, linkFiles_eq_ok.2 ⟨text, patched, replaced,
    FileStore.content_eq_ok.2 stored, toOption_eq_some.1 hplaced, rfl, rfl⟩⟩] at ends
  obtain ⟨notices, run⟩ := Ends.run ends
  exact ⟨_, _, run, rfl⟩

/-- The way from a page that is the root descriptor down to the arguments of the call. -/
def pageWay : List Frame :=
  wayAlong [1, 0, 0, 1, 0, 0, 1, 0, 1] (parse pageText.toList)

/-- The way from a descriptor that is the root factory down to the assignment. -/
def factoryWay : List Frame :=
  wayAlong [1, 0] (parse factoryText.toList)

/-- A page that is the root descriptor keeps its route, and a descriptor that is the root factory
its registrar. -/
theorem deepLink_again_pages :
    (∃ result after notices, Pass.run (deepLink pageConfig) pageProject = (.ok result, after) ∧
        result.links = [pageLink] ∧ Pass.run (deepLink pageConfig) after.files
          = (.ok { result with replaced := true }, ⟨after.files, notices⟩)) ∧
      ∃ result after notices, Pass.run (deepLink factoryConfig) factoryProject
        = (.ok result, after) ∧
        result.links = [factoryLink] ∧ Pass.run (deepLink factoryConfig) after.files
          = (.ok { result with replaced := false }, ⟨after.files, notices⟩) := by
  constructor
  · have evaluated : pageProject.get? pageConfig.registrationTargetPath = some pageText ∧
        (projectLinks pageProject pageConfig).toOption = some [pageLink] ∧
        (placeRegistry pageConfig pageConfig.registrationTargetPath pageText
          (registryText [pageLink])).toOption.isSome = true ∧
        ∀ e ∈ linksEdit? pageConfig pageText [pageLink], e.ReadAlong pageWay pageText.toList ∧
          SparesRoutes pageConfig pageProject pageConfig.registrationTargetPath pageText e := by
      decide +kernel
    obtain ⟨stored, found, placed, read⟩ := evaluated
    obtain ⟨result, after, success, links⟩ := exists_run stored found placed
    rw [← links] at read
    have oneLine : ∀ link ∈ result.links, link.OneLine := by
      rw [links]
      exact List.forall_mem_singleton.2 oneLine_pageLink
    obtain ⟨notices, again⟩ := deepLink_again success stored oneLine
      (fun e edit _ => (read e edit).1.readsEdit) (fun e edit => (read e edit).2)
      (fun mode => absurd mode (by decide))
    exact ⟨result, after, notices, success, links, again⟩
  · have evaluated : factoryProject.get? factoryConfig.registrationTargetPath = some factoryText ∧
        (projectLinks factoryProject factoryConfig).toOption = some [factoryLink] ∧
        (placeRegistry factoryConfig factoryConfig.registrationTargetPath factoryText
          (registryText [factoryLink])).toOption.isSome = true ∧
        ∀ e ∈ linksEdit? factoryConfig factoryText [factoryLink],
          e.ReadAlong factoryWay factoryText.toList ∧
          SparesRoutes factoryConfig factoryProject factoryConfig.registrationTargetPath factoryText e ∧
          SparesRegistrars factoryConfig factoryProject factoryConfig.registrationTargetPath
            factoryText e := by
      decide +kernel
    obtain ⟨stored, found, placed, read⟩ := evaluated
    obtain ⟨result, after, success, links⟩ := exists_run stored found placed
    rw [← links] at read
    have oneLine : ∀ link ∈ result.links, link.OneLine := by
      rw [links]
      exact List.forall_mem_singleton.2 oneLine_factoryLink
    obtain ⟨notices, again⟩ := deepLink_again success stored oneLine
      (fun e edit _ => (read e edit).1.readsEdit) (fun e edit => (read e edit).2.1)
      (fun _ e edit => (read e edit).2.2)
    exact ⟨result, after, notices, success, links, again⟩

/-! ## Routes in the text that is replaced -/

/-- Whether a second run over some files finds what the first one did and changes nothing. -/
def Repeats [WorkingFolder] [Parser] (config : BuildConfig) (files : FileStore) : Prop :=
  ∀ text result after, Pass.run (deepLink config) files = (.ok result, after) →
    files.get? config.registrationTargetPath = some text →
    (∀ link ∈ result.links, link.OneLine) →
    (∀ e ∈ linksEdit? config text result.links,
      (registryWriting result.links).Valid → ReadsEdit text.toList e) →
    ∃ notices, Pass.run (deepLink config) after.files
      = (.ok { result with replaced := !config.compiledMode }, ⟨after.files, notices⟩)

theorem not_repeats {config : BuildConfig} {files : FileStore} {text : String} {links : List Link}
    {way : List Frame} (oneLine : ∀ link ∈ links, link.OneLine)
    (evaluated : files.get? config.registrationTargetPath = some text ∧
      (projectLinks files config).toOption = some links ∧
      (placeRegistry config config.registrationTargetPath text
        (registryText links)).toOption.isSome = true ∧
      ∀ e ∈ linksEdit? config text links, e.ReadAlong way text.toList ∧
        (linksOver files config config.registrationTargetPath
          (e.span.replace text.toList e.text)).toOption ≠ some links) :
    ¬ Repeats config files := by
  obtain ⟨stored, found, placed, read⟩ := evaluated
  obtain ⟨result, after, success, rfl⟩ := exists_run stored found placed
  intro repeats
  obtain ⟨notices, again⟩ :=
    repeats text result after success stored oneLine fun e edit _ => (read e edit).1.readsEdit
  obtain ⟨patched, linked⟩ := linked_of_run success stored
  obtain ⟨e, edit, -, heq⟩ := placeRegistry_edit linked.placed
  have written : after.files.get? config.registrationTargetPath = some patched := by
    rw [linked.files, FileStore.get?_set, if_pos rfl]
  obtain ⟨_, relinked⟩ := linked_of_run again written
  have same := relinked.found
  rw [linked.files, heq, Source.replace, String.toList_ofList,
    projectLinks_set_ofList stored] at same
  exact (read e edit).2 (congrArg Except.toOption same)

/-- A page that is the root descriptor too, with a route in the third argument of the root
method. -/
def inlineText : String :=
  "@NgModule(\x7bimports:[IonicModule.forRoot(A,\x7b\x7d,()=>" ++
    "\x7b@IonicPage() class P \x7b\x7d\x7d)]\x7d) class M \x7b\x7d"

/-- A project with a route in the text that a registry takes the place of. -/
def inlineProject : FileStore :=
  .ofList [("/app/src/a.ts", inlineText),
    ("/app/src/a.module.ts", "@NgModule(\x7b\x7d) class N \x7b\x7d")]

/-- The build of pages whose annotation has a dot in its name. -/
def dottedConfig : BuildConfig :=
  { pageConfig with routeDecorator := "Ionic.Page" }

/-- A page that is the root descriptor too, with blanks around the dot of its annotation. -/
def dottedText : String :=
  "@Ionic . Page() class Q \x7b\x7d " ++
    "@NgModule(\x7bimports:[IonicModule.forRoot(A)]\x7d) class M \x7b\x7d"

/-- A project with a page that is not read until the name of its annotation is in a registry; no
module packages it. -/
def dottedProject : FileStore :=
  .ofList [("/app/src/a.ts", dottedText),
    ("/app/src/b.ts", "@Ionic.Page(\x7bname:'Ionic.Page'\x7d) class P \x7b\x7d"),
    ("/app/src/b.module.ts", "@NgModule(\x7b\x7d) class N \x7b\x7d")]

/-- The link of a page whose route is called like its annotation. -/
def dottedLink : Link where
  className := "P"
  filePath := "/app/src/b.ts"
  name := "Ionic.Page"
  declaration := "@Ionic.Page(\x7bname:'Ionic.Page'\x7d)"
  modulePath := "./b.module"
  exportName := "N"
  moduleFile := "/app/src/b.module.ts"

theorem oneLine_dottedLink : dottedLink.OneLine :=
  ⟨by decide, by decide, by simp [dottedLink], by decide, by decide⟩

/-- A descriptor that is the root factory too, with the registrar in the value of its field. -/
def nestedText : String :=
  "this._DeepLinkConfigToken = () => \x7b@NgModule(\x7b\x7d) class N \x7b\x7d\x7d;"

/-- A project whose registrar stands in the text that a registry takes the place of. -/
def nestedProject : FileStore :=
  .ofList [("/app/src/a.ts", "@IonicPage() class P \x7b\x7d"),
    ("/app/src/a.ngfactory.ts", nestedText)]

/-- **A second run may differ** where the edit does not spare what is read: a route that is replaced
is lost, a page into whose text its annotation's name comes is read, and a registrar that is
replaced is missed. -/
theorem second_run_differs : ¬ Repeats pageConfig inlineProject ∧
    ¬ Repeats dottedConfig dottedProject ∧ ¬ Repeats factoryConfig nestedProject := by
  refine ⟨?_, ?_, ?_⟩
  · exact @not_repeats _ _ inlineText [pageLink]
      (wayAlong [0, 0, 0, 1, 0, 0, 1, 0, 1] (parse inlineText.toList))
      (List.forall_mem_singleton.2 oneLine_pageLink) (by decide +kernel)
  · exact @not_repeats _ _ dottedText [dottedLink]
      (wayAlong [1, 0, 0, 1, 0, 0, 1, 0, 1] (parse dottedText.toList))
      (List.forall_mem_singleton.2 oneLine_dottedLink) (by decide +kernel)
  · exact @not_repeats _ _ nestedText [factoryLink] (wayAlong [0, 0] (parse nestedText.toList))
      (List.forall_mem_singleton.2 oneLine_factoryLink) (by decide +kernel)

end RouteTrim.Pass
