import RouteTrim.Failure
import RouteTrim.Path.Basic
import RouteTrim.Settings.BuildConfig
import RouteTrim.Settings.Key

/-!
# From settings to a build configuration

Settings hold values of any type. A build configuration is made of them by taking the text of each
value, resolving relative paths against the root directory, reading the mode as a truth value and
describing every provider of the catalogue.
-/

set_option autoImplicit false

namespace RouteTrim.Settings

/-- The services of the framework and their controllers. -/
def knownProviders : List (String × String) :=
  [("action-sheet", "ActionSheetController"),
    ("alert", "AlertController"),
    ("loading", "LoadingController"),
    ("modal", "ModalController"),
    ("picker", "PickerController"),
    ("popover", "PopoverController"),
    ("toast", "ToastController")]

/-- The settings without any layer on top. -/
def defaults : Settings where
  value
    | .rootDir => .text "."
    | .srcDir => .text "src"
    | .rootDescriptorPath => .text "src/app/app.module.ts"
    | .appEntryPoint => .text "src/app/main.ts"
    | .frameworkDir => .text "node_modules/ionic-angular"
    | .frameworkEntryPoint => .null
    | .compiledMode => .bool false
    | .descriptorSuffix => .text ".module.ts"
    | .compiledSuffix => .text ".ngfactory"
    | .compiledClassSuffix => .text "NgFactory"
    | .compiledFactoryMarker => .text ".ngfactory."
    | .routeDecorator => .text "IonicPage"
    | .registrarDecorator => .text "NgModule"
    | .frameworkModule => .text "IonicModule"
    | .frameworkRootMethod => .text "forRoot"
    | .compiledRegistryField => .text "_DeepLinkConfigToken"
    | .providers => .list (knownProviders.map fun (name, _) => .text name)

/-- A path setting as a normal path; relative ones start from the root directory. A value that
counts as not given has the empty path. -/
def resolvePath (rootDir : String) (value : Value) : String :=
  if value.isTruthy then
    let path := Path.normalize value.display
    if Path.isAbsolute path then path else Path.normalize (Path.join rootDir path)
  else ""

/-- A setting as a truth value: a few words and digits in any letter case stand for one. -/
def readBool (key : Key) (value : Value) : Except Failure Bool :=
  match value with
  | .bool b => .ok b
  | _ =>
    let word := String.ofList ((Text.trim value.display.toList).map Char.toLower)
    if word ∈ ["true", "1", "yes", "on"] then .ok true
    else if word ∈ ["false", "0", "no", "off", ""] then .ok false
    else .error (.settingNotBool key.name value)

/-- The provider with the given names; its files have their fixed places in the framework. -/
def Provider.ofNames (frameworkDir name className : String) : Provider :=
  let directory := Path.join (Path.join frameworkDir "components") name
  { name
    className
    controllerPath := Path.join directory (name ++ "-controller.js")
    componentPath := Path.join directory (name ++ "-component.js")
    componentFactoryPath := Path.join directory (name ++ "-component.ngfactory.js") }

/-- A provider of the catalogue: the name of a known one, or a map with both names. -/
def readProvider (frameworkDir : String) (entry : Value) : Except Failure Provider :=
  let (name, className) :=
    match entry with
    | .map entries =>
      (((Value.field? "name" entries).map Value.display).getD "",
        (Value.field? "class_name" entries).getD .null)
    | _ =>
      let name := entry.display
      (name, ((knownProviders.lookup name).map Value.text).getD .null)
  if name.isEmpty || !className.isTruthy then
    .error (.unknownProvider entry (knownProviders.map Prod.fst))
  else .ok (.ofNames frameworkDir name className.display)

/-- The entries of a catalogue. A value that counts as not given has none, a text has its
characters and a map its keys. -/
def catalogueEntries (value : Value) : Except Failure (List Value) :=
  if value.isTruthy then
    match value with
    | .list items => .ok items
    | .text s => .ok (s.toList.map fun c => .text (String.singleton c))
    | .map entries => .ok (entries.map Prod.fst)
    | _ => .error .notIterable
  else .ok []

def build (settings : Settings) : Except Failure BuildConfig := do
  let text (key : Key) : String := (settings.value key).display
  let root := settings.value .rootDir
  let rootDir := Path.normalize (if root.isTruthy then root.display else ".")
  if !(settings.value .rootDescriptorPath).isTruthy then throw .rootDescriptorRequired
  let path (key : Key) : String := resolvePath rootDir (settings.value key)
  let frameworkDir := path .frameworkDir
  let entryPoint := path .frameworkEntryPoint
  let compiledMode ← readBool .compiledMode (settings.value .compiledMode)
  let entries ← catalogueEntries (settings.value .providers)
  let providers ← entries.mapM (readProvider frameworkDir)
  return {
    rootDir
    srcDir := path .srcDir
    rootDescriptorPath := path .rootDescriptorPath
    appEntryPoint := path .appEntryPoint
    frameworkDir
    frameworkEntryPoint :=
      if entryPoint.isEmpty then Path.join frameworkDir "index.js" else entryPoint
    compiledMode
    descriptorSuffix := text .descriptorSuffix
    compiledSuffix := text .compiledSuffix
    compiledClassSuffix := text .compiledClassSuffix
    routeDecorator := text .routeDecorator
    registrarDecorator := text .registrarDecorator
    frameworkModule := text .frameworkModule
    frameworkRootMethod := text .frameworkRootMethod
    compiledRegistryField := text .compiledRegistryField
    compiledFactoryMarker := text .compiledFactoryMarker
    providers }

end RouteTrim.Settings
