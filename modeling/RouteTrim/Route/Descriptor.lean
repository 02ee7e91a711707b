import RouteTrim.Path.Specifier
import RouteTrim.Route.Decoration
import RouteTrim.Route.Entry
import RouteTrim.Settings.BuildConfig
import RouteTrim.Store.FileStore

/-!
# Module descriptors

Each page is packaged by a descriptor beside it, a file with exactly one registrar class. The
router loads that class, or in compiled mode the factory that is generated for it.
-/

set_option autoImplicit false

namespace RouteTrim.Route

open RouteTrim.Path (WorkingFolder)
open RouteTrim.Settings (BuildConfig)
open RouteTrim.Tree (Source Parser)

/-- A descriptor and what the router has to know about it. -/
structure Descriptor where
  /-- The file of the descriptor. -/
  path : String
  /-- The name of its registrar class. -/
  registrar : String
  /-- The specifier by which the root descriptor imports the module. -/
  modulePath : String
  /-- The class that the module exports. -/
  exportName : String
  /-- The file of the module. -/
  moduleFile : String
  deriving DecidableEq, Repr

namespace Descriptor

/-- Where the descriptor of a class stands. -/
def pathFor (config : BuildConfig) (classFile : String) : String :=
  Path.changeExtension classFile config.descriptorSuffix

/-- The name of the one registrar class in a file. -/
def registrarOf (source : Source) (config : BuildConfig) : Except Failure String :=
  match annotatedClasses source config.registrarDecorator with
  | [registrar] => .ok registrar.className
  | registrars =>
    .error (.cardinality ("class decorated with @" ++ config.registrarDecorator) 1
      registrars.length source.path)

/-- The name of the one registrar class in a descriptor's text. -/
def registrarIn [Parser] (config : BuildConfig) (path content : String) : Except Failure String :=
  registrarOf (Source.ofText content path) config

/-- The descriptor at a path, given the name of its registrar class. -/
def ofRegistrar [WorkingFolder] (config : BuildConfig) (path registrar : String) : Descriptor :=
  let stem := Path.stripExtension path
  if config.compiledMode then
    let compiled := stem ++ config.compiledSuffix
    { path
      registrar
      modulePath := Path.importSpecifier config.rootDescriptorPath compiled
      exportName := registrar ++ config.compiledClassSuffix
      moduleFile := compiled ++ ".ts" }
  else
    { path
      registrar
      modulePath := Path.importSpecifier config.rootDescriptorPath stem
      exportName := registrar
      moduleFile := path }

/-- The descriptor of a class. -/
def resolve [WorkingFolder] [Parser] (config : BuildConfig) (store : FileStore)
    (classFile : String) :
    Except Failure Descriptor := do
  let path := pathFor config classFile
  match store.get? path with
  | none => throw (.descriptorNotFound classFile path)
  | some content => return ofRegistrar config path (← registrarIn config path content)

end Descriptor

/-- A route with the module that a descriptor names. -/
def Entry.link (entry : Entry) (descriptor : Descriptor) : Link :=
  { entry with
    modulePath := descriptor.modulePath
    exportName := descriptor.exportName
    moduleFile := descriptor.moduleFile }

/-- A route with the module of its class. -/
def Entry.resolve [WorkingFolder] [Parser] (config : BuildConfig) (store : FileStore)
    (entry : Entry) :
    Except Failure Link :=
  entry.link <$> Descriptor.resolve config store entry.filePath

end RouteTrim.Route
